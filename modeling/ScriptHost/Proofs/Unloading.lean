import ScriptHost.Proofs.Coherence
import ScriptHost.Proofs.HandOver

/-!
# How often a script is unloaded

Unloading a script runs the hooks and tells the script at least once, and leaves nothing loaded. Hooks
and the script may ask for the same again while it is going on, since the script counts as loaded to
the end: then all of it happens once more (`unload_once`).
-/
namespace ScriptHost

namespace Block

/-- No block gives up more scripts than it tells. -/
theorem count_vacate_le {d : Deed} {block : List Deed} (h : Block (d :: block)) :
    block.count .vacate ≤ block.countP Deed.isFarewell := by
  have none : ∀ {ds : List Deed}, (∀ d ∈ ds, d.isRising ∨ d.isPlain) → ds.count .vacate = 0 :=
    fun h => List.count_eq_zero.2 fun hm => (h _ hm).elim nofun nofun
  have steady : ∀ {ds : List Deed}, (∀ d ∈ ds, d.isSteady) → ds.count .vacate = 0 :=
    fun h => none fun d hd => .inr (Deed.isPlain_of_isSteady (h d hd))
  cases h with
  | unload hplain => exact (none fun d hd => .inr (hplain d hd)).trans_le (Nat.zero_le _)
  | unloaded hplain told =>
    have hmid := none fun d hd => .inr (hplain d hd)
    have htold := List.countP_pos_iff.2 told
    simp only [List.count_append, List.countP_append, hmid]
    simpa [Deed.isFarewell] using htold
  | loaded ha hb hc he =>
    simp [List.count_append, steady ha, steady hb, steady hc, steady he]
  | failed hrising | aborted hrising =>
    simp [List.count_append, none fun d hd => .inl (hrising d hd)]

end Block

namespace Woven

variable {own ds : List Deed}

/-- Whatever is woven in, no more scripts are given up than are told. -/
theorem count_vacate_le (h : Woven own ds) :
    ds.count .vacate + own.countP Deed.isFarewell ≤
      ds.countP Deed.isFarewell + own.count .vacate := by
  induction h with
  | nil => exact Nat.le_refl _
  | own d _ ih =>
    simp only [List.count_cons, List.countP_cons]
    omega
  | @quiet d own ds hd _ ih =>
    have hv : (d == .vacate) = false := by cases d <;> first | rfl | cases hd
    have hf : d.isFarewell = false := by cases d <;> first | rfl | cases hd
    simp only [List.count_cons, List.countP_cons, hv, hf]
    omega
  | @nested d block es own ds hb _ _ ihi ih =>
    have hblock := hb.count_vacate_le
    have hv : (d == .vacate) = false := by cases hb <;> rfl
    have hf : d.isFarewell = false := by cases hb <;> rfl
    simp only [List.count_cons, List.countP_cons, List.count_append, List.countP_append, hv, hf]
    omega

end Woven

namespace Holding

/-- A script that is loaded keeps others from being loaded until it is given up. -/
theorem not_load_of_loaded {s : Holding} {ds : List Deed} (ha : s.AdmitsAll ds)
    (hl : s.loaded = true) (hv : .vacate ∉ ds) : ∀ d ∈ ds, d.isLoad = false := by
  induction ds generalizing s with
  | nil => nofun
  | cons d ds ih =>
    have hd : d.isLoad = false := by
      cases d with
      | load path => exact absurd (ha.1.symm.trans hl) Bool.false_ne_true
      | _ => rfl
    have hl' : (s.step d).loaded = true := by
      cases d with
      | vacate => exact absurd (by simp) hv
      | succeed => rfl
      | _ => exact hl
    exact List.forall_mem_cons.2 ⟨hd, ih ha.2 hl' fun hm => hv (by simp [hm])⟩

end Holding

namespace Op

open World

variable {host : Responder} {w : World} {home : Nat}

/-- Giving up the script is the last that an unloading does. -/
theorem exists_deeds_unload (hh : host.Follows) (hl : w.session.loaded = true)
    (he : (unload host).Ends w) : ∃ ds, (unload host).deeds w = ds ++ [.vacate] := by
  obtain ⟨_, hu⟩ := ends_iff.1 he
  obtain ⟨-, text, ha⟩ := after_unload_of_ok hl hu
  obtain ⟨hooks, asked, pre, post, hpre, -, -⟩ := exists_split_of_unload hh hl hu
  obtain ⟨ds, hend⟩ := does_endSubscriptions hh (toldIn host w)
  have hlong := hpre.trans hend
  refine ⟨pre ++ ds, ?_⟩
  rw [deeds, ha]
  change (Array.push _ Deed.vacate).toList.drop w.history.size = _
  rw [Array.toList_push, hlong.history, List.append_assoc, List.drop_left' (by simp)]

/-- Deeds of an unloading, each as often as it is done. -/
theorem count_farewell_hook (hooks : List Nat) (asked : Option Nat) (hook : Nat) :
    (farewell hooks asked).count (.hook .unloaded hook) = hooks.count hook := by
  have hmap : (hooks.map (Deed.hook .unloaded)).count (.hook .unloaded hook) = hooks.count hook := by
    rw [List.count_eq_countP, List.countP_map, List.count_eq_countP]
    exact List.countP_congr fun h _ => by simp
  simp [farewell, List.count_append, hmap]

theorem countP_farewell (hooks : List Nat) (asked : Option Nat) :
    (farewell hooks asked).countP Deed.isFarewell = 1 := by
  have hmap : (hooks.map (Deed.hook .unloaded)).countP Deed.isFarewell = 0 :=
    List.countP_eq_zero.2 (by simp [Deed.isFarewell])
  simp [farewell, List.countP_append, hmap, Deed.isFarewell]

theorem count_farewell_vacate (hooks : List Nat) (asked : Option Nat) :
    (farewell hooks asked).count .vacate = 1 := by
  have hmap : (hooks.map (Deed.hook .unloaded)).count .vacate = 0 :=
    List.count_eq_zero.2 (by simp)
  simp [farewell, List.count_append, hmap]

theorem tellsFirst_farewell (hooks : List Nat) (asked : Option Nat) :
    TellsFirst (farewell hooks asked) := by
  refine .inr ⟨fun _ => rfl, ?_⟩
  have hs : hooks.map (.hook .unloaded) ++ [.tell asked "OnUnload", .teardown, .vacate] =
      (hooks.map (.hook .unloaded) ++ [.tell asked "OnUnload"]) ++ [.teardown, Deed.vacate] := by
    simp
  rw [hs]
  exact tellsFirst_append isPlain_told ⟨.tell asked "OnUnload", by simp, rfl⟩ _

/-- If no unloading is broken off and nobody is told twice, nothing else has begun to load or unload
anything. -/
theorem alone_of_countP_eq_one (hh : host.Follows) (hl : w.session.loaded = true)
    (he : (unload host).Ends w)
    (hwhole : ((unload host).deeds w).count .vacate = ((unload host).deeds w).count .unload)
    (once : ((unload host).deeds w).countP Deed.isFarewell = 1) :
    Woven.Alone [.unload] ((unload host).deeds w) := by
  obtain ⟨hooks, asked, hdoes, -, -⟩ := does_unload hh hl ((ends_unload_iff hl).1 he)
  have hlead := hdoes.leads
  obtain ⟨ds, hds⟩ := exists_deeds_unload hh hl he
  have hle := hlead.woven.count_vacate_le
  rw [countP_farewell, count_farewell_vacate, once] at hle
  rw [hds] at hwhole hle hlead ⊢
  simp only [List.count_append, List.count_singleton_self] at hle hwhole
  have hvacate : .vacate ∉ ds := List.count_eq_zero.1 (by omega)
  have hload := Holding.not_load_of_loaded (Holding.admitsAll_append.1 hlead.admits).1 hl hvacate
  have hstart : ∀ d ∈ ds ++ [.vacate], d.isStart = (d == .unload) := by
    intro d hd
    rcases List.mem_append.1 hd with hd | hd
    · have hd := hload d hd
      cases d <;> first | rfl | cases hd
    · rw [List.mem_singleton.1 hd]
      rfl
  have hcount : ((ds ++ [Deed.vacate]).filter Deed.isStart).length =
      (ds ++ [Deed.vacate]).count .unload := by
    rw [← List.countP_eq_length_filter, List.count_eq_countP]
    exact List.countP_congr fun d hd => by rw [hstart d hd]
  rw [Woven.Alone, hcount, List.count_append]
  change _ ≤ 1
  omega

/-- **A script is let go.** Unloading a script ends in a value iff nothing that is not guarded fails.
Then nothing is loaded, and what is listened to is what somebody has begun to listen to since all of
it was forgotten. The hooks have run, and the script was told in its own environment: once each, if
nothing else has begun to load or unload anything meanwhile; and if nobody was told twice, nothing
else has, unless it was broken off. -/
theorem unload_once (n : Nat) (hl : w.session.loaded = true)
    (hhome : w.session.environment = some home) :
    let ds := (unload (respond n)).deeds w
    let v := (unload (respond n)).after w
    ((unload (respond n)).Ends w ↔ CanUnload (respond n) w) ∧
    ((unload (respond n)).Ends w →
      v.session.holding = {} ∧
      (∀ name, name ∈ v.eventBooks.active.names ↔ Stands (· == .forget) (.listen name) ds) ∧
      ∃ hooks, w.session.hooks.unloaded <+: hooks ∧ hooks <+: v.session.hooks.unloaded ∧
        (∀ hook ∈ hooks, .hook .unloaded hook ∈ ds) ∧ .tell (some home) "OnUnload" ∈ ds ∧
        (Woven.Alone [.unload] ds → (∀ hook, ds.count (.hook .unloaded hook) = hooks.count hook) ∧
          ds.count (.tell (some home) "OnUnload") = 1 ∧ ds.countP Deed.isFarewell = 1) ∧
        (ds.count .vacate = ds.count .unload → ds.countP Deed.isFarewell = 1 →
          Woven.Alone [.unload] ds)) := by
  intro ds v
  have hh := follows_respond n
  refine ⟨ends_unload_iff hl, fun he => ?_⟩
  obtain ⟨hooks, asked, hdoes, hall, honly⟩ := does_unload hh hl ((ends_unload_iff hl).1 he)
  have hlead : Leads w (farewell hooks asked) ds v := hdoes.leads
  refine ⟨holding_after_unload hl he, fun name => ?_, hooks, hall, honly, fun hook hm => ?_, ?_,
    fun alone => ?_, fun hwhole once => alone_of_countP_eq_one hh hl he hwhole once⟩
  · have hforget : .forget ∈ ds := by
      obtain ⟨_, hu⟩ := ends_iff.1 he
      obtain ⟨_, _, pre, post, hpre, hpost, hforget⟩ := exists_split_of_unload hh hl hu
      rw [show ds = pre ++ .teardown :: post from (hpre.trans hpost).deeds_eq.symm]
      simp [hforget]
    rw [hlead.active, mem_listening_iff]
    exact or_iff_left fun h => h.2 hforget
  · exact hlead.woven.subset (by simp [farewell, hm])
  · refine (hlead.woven.told hlead.admits hhome hl (tellsFirst_farewell _ _)).resolve_right ?_
    rintro ⟨-, hn⟩
    exact absurd (hn (.tell asked "OnUnload") (by simp [farewell])) (by simp [Deed.isFarewell])
  · have halone : Woven.Alone (farewell hooks asked) ds := alone.cons _
    have hasked : asked = some home :=
      (eq_of_admitsAll_farewell (hlead.woven.admitsAll halone hlead.admits)).symm.trans hhome
    refine ⟨fun hook => ?_, ?_, ?_⟩
    · rw [hlead.woven.count_eq halone rfl, count_farewell_hook]
    · rw [hlead.woven.count_eq halone rfl, hasked]
      have hmap : (hooks.map (Deed.hook .unloaded)).count (.tell (some home) "OnUnload") = 0 :=
        List.count_eq_zero.2 (by simp)
      simp [farewell, List.count_append, hmap]
    · have hp : ∀ d : Deed, d.isQuiet → d.isFarewell = false := by
        intro d hd
        cases d <;> first | rfl | cases hd
      rw [List.countP_eq_length_filter, hlead.woven.filter_eq halone hp,
        ← List.countP_eq_length_filter, countP_farewell]

/-- A hook, a script that is told without a word, and one that asks for its unloading when it is told
of it for the first time. -/
def lingering : World where
  files := ((default : Files.Node).put
    (.file (Text.encode "n = 0 function OnUnload() n = n + 1 if n < 2 then A.u() end end")) ["a.lua"]).put
      (.file (Text.encode "function OnUnload() end")) ["b.lua"]
  objects := #[.absent, .callable ⟨"function", "<function>", fun _ => Program.request .unload, none⟩,
    .callable ⟨"function", "<function>", fun _ => pure .none, none⟩]
  session := { hooks := { unloaded := [2] } }
  catalog := { functions := ⟨[("A.u", pure ⟨"A", "u", pure (.object 1)⟩)]⟩ }

/-- The script that says nothing is let go once. -/
theorem unload_once_of_lingering :
    let w := (load (respond 5) (.text "b.lua")).after lingering
    (unload (respond 5)).Ends w ∧
      ((unload (respond 5)).deeds w).count (.hook .unloaded 2) = 1 ∧
      ((unload (respond 5)).deeds w).count (.tell (some 0) "OnUnload") = 1 := by
  have h : ((load (respond 5) (.text "b.lua")).after lingering).session.loaded = true ∧
      ((load (respond 5) (.text "b.lua")).after lingering).session.environment = some 0 ∧
      (unload (respond 5)).Ends ((load (respond 5) (.text "b.lua")).after lingering) ∧
      Woven.Alone [.unload]
        ((unload (respond 5)).deeds ((load (respond 5) (.text "b.lua")).after lingering)) ∧
      ((unload (respond 5)).after
        ((load (respond 5) (.text "b.lua")).after lingering)).session.hooks.unloaded = [2] ∧
      ((load (respond 5) (.text "b.lua")).after lingering).session.hooks.unloaded = [2] := by
    decide +kernel
  obtain ⟨hl, hhome, he, halone, hlast, hfirst⟩ := h
  obtain ⟨-, hooks, hall, honly, -, -, honce, -⟩ := ((unload_once 5 hl hhome).2 he).2
  obtain ⟨hhooks, htold, -⟩ := honce halone
  rw [hfirst] at hall
  rw [hlast] at honly
  refine ⟨he, ?_, htold⟩
  rw [hhooks, List.IsPrefix.eq_of_length_le hall honly.length_le |>.symm]
  rfl

/-- The other one is told twice, and so are the hooks. -/
theorem unload_twice_of_lingering :
    let w := (load (respond 9) (.text "a.lua")).after lingering
    (unload (respond 9)).Ends w ∧ w.session.loaded = true ∧
      ((unload (respond 9)).deeds w).count (.hook .unloaded 2) = 2 ∧
      ((unload (respond 9)).deeds w).count (.tell (some 0) "OnUnload") = 2 := by
  decide +kernel

end Op

end ScriptHost
