import ScriptHost.Proofs.Answers

/-!
# Loads within loads

Whether what a session holds fits together: there is an environment and a path just when a script is
loaded, and the text at this path has run in this environment. Loads that come one after another keep
it so, whatever is unloaded meanwhile (`Woven.coherent`). With a load that begins within another, or
that is broken off, it depends on the order of the deeds which of them stand (`Balanced`).
-/
namespace ScriptHost

open Files (Path)

/-- What is held fits together, after certain deeds. -/
structure Holding.Coherent (ds : List Deed) (s : Holding) : Prop where
  environment_iff : s.loaded = true ↔ s.environment.isSome
  path_iff : s.environment.isSome ↔ s.path.isSome
  ran : s.loaded = true → ∃ home path, s.environment = some home ∧ s.path = some path ∧
    .body home path ∈ ds

/-- What the session holds fits together. -/
def World.Coherent (w : World) : Prop :=
  w.session.holding.Coherent w.history.toList

/-- Nothing has happened to the session so far. -/
structure World.Fresh (w : World) : Prop where
  holding : w.session.holding = {}
  history : w.history = #[]

theorem World.Coherent.loaded_iff {w : World} (h : w.Coherent) :
    w.session.loaded = true ↔ w.session.environment.isSome :=
  h.environment_iff

namespace Holding

theorem Coherent.mono {ds es : List Deed} {s : Holding} (h : s.Coherent ds) (hs : ds ⊆ es) :
    s.Coherent es where
  environment_iff := h.environment_iff
  path_iff := h.path_iff
  ran hl := by
    obtain ⟨home, path, he, hp, hb⟩ := h.ran hl
    exact ⟨home, path, he, hp, hs hb⟩

/-- Nothing fits together. -/
theorem coherent_nothing (ds : List Deed) : Coherent ds {} :=
  ⟨by simp, by simp, nofun⟩

theorem Coherent.of_not_loaded {ds : List Deed} {s : Holding} (h : s.Coherent ds)
    (hl : s.loaded = false) : s = {} := by
  have he : s.environment = none := by
    have hn := mt h.environment_iff.2 (by simp [hl])
    simpa using hn
  have hp : s.path = none := by
    have hn := mt h.path_iff.2 (by simp [he])
    simpa using hn
  cases s
  subst he hp hl
  rfl

end Holding

/-! ### What stands -/

namespace Deed

/-- Whether a deed changes the environment of a session. -/
def movesHome : Deed → Bool
  | occupy _ | fail | vacate => true
  | _ => false

/-- Whether a deed changes the path of a session. -/
def movesPath : Deed → Bool
  | adopt _ | fail | vacate => true
  | _ => false

end Deed

/-- If a load that has succeeded stands, so do an environment and a path, and the text at this path
has run in this environment. Nothing stands otherwise. -/
structure Balanced (ds : List Deed) : Prop where
  environment_iff : Stands (· == .vacate) .succeed ds ↔
    ∃ home, Stands Deed.movesHome (.occupy home) ds
  path_iff : (∃ home, Stands Deed.movesHome (.occupy home) ds) ↔
    ∃ path, Stands Deed.movesPath (.adopt path) ds
  ran : Stands (· == .vacate) .succeed ds → ∃ home path,
    Stands Deed.movesHome (.occupy home) ds ∧ Stands Deed.movesPath (.adopt path) ds ∧
      .body home path ∈ ds

namespace Holding

variable {ds : List Deed}

theorem environment_replay_iff {home : Nat} :
    (replay {} ds).environment = some home ↔ Stands Deed.movesHome (.occupy home) ds := by
  induction ds using List.reverseRecOn with
  | nil => simp [not_stands_nil]
  | append_singleton ds d ih =>
    rw [replay_append, stands_concat]
    cases d <;> simp [step, Deed.movesHome, ih]

theorem path_replay_iff {path : Path} :
    (replay {} ds).path = some path ↔ Stands Deed.movesPath (.adopt path) ds := by
  induction ds using List.reverseRecOn with
  | nil => simp [not_stands_nil]
  | append_singleton ds d ih =>
    rw [replay_append, stands_concat]
    cases d <;> simp [step, Deed.movesPath, ih]

/-- What is held after a history fits together iff what stands in it does. -/
theorem coherent_replay_iff : (replay {} ds).Coherent ds ↔ Balanced ds := by
  have hl : (replay {} ds).loaded = true ↔ Stands (· == .vacate) .succeed ds := by
    rw [loaded_replay_iff]
    exact or_iff_left fun h => Bool.false_ne_true h.1
  have he : (replay {} ds).environment.isSome ↔
      ∃ home, Stands Deed.movesHome (.occupy home) ds := by
    rw [Option.isSome_iff_exists]
    exact exists_congr fun home => environment_replay_iff
  have hp : (replay {} ds).path.isSome ↔ ∃ path, Stands Deed.movesPath (.adopt path) ds := by
    rw [Option.isSome_iff_exists]
    exact exists_congr fun path => path_replay_iff
  constructor
  · intro h
    refine ⟨hl.symm.trans (h.environment_iff.trans he), he.symm.trans (h.path_iff.trans hp),
      fun hs => ?_⟩
    obtain ⟨home, path, hhome, hpath, hb⟩ := h.ran (hl.2 hs)
    exact ⟨home, path, environment_replay_iff.1 hhome, path_replay_iff.1 hpath, hb⟩
  · intro h
    refine ⟨hl.trans (h.environment_iff.trans he.symm), he.trans (h.path_iff.trans hp.symm),
      fun hs => ?_⟩
    obtain ⟨home, path, hhome, hpath, hb⟩ := h.ran (hl.1 hs)
    exact ⟨home, path, environment_replay_iff.2 hhome, path_replay_iff.2 hpath, hb⟩

end Holding

/-! ### Loads one after another -/

namespace Deed

/-- Whether a load begins. -/
def isLoad : Deed → Bool
  | load _ => true
  | _ => false

/-- Whether a load ends. -/
def isEnd : Deed → Bool
  | succeed | fail | abort => true
  | _ => false

end Deed

/-- Whether a load is in progress after a deed. -/
def busyStep (busy : Bool) (d : Deed) : Bool :=
  if d.isLoad then true else if d.isEnd then false else busy

/-- No load begins while another is in progress, and none is broken off. -/
def Unnested : Bool → List Deed → Prop
  | _, [] => True
  | busy, d :: ds =>
    (d.isLoad = true → busy = false) ∧ d ≠ .abort ∧ Unnested (busyStep busy d) ds

instance Unnested.decidable : (busy : Bool) → (ds : List Deed) → Decidable (Unnested busy ds)
  | _, [] => instDecidableTrue
  | busy, d :: ds =>
    let _ := Unnested.decidable (busyStep busy d) ds
    inferInstanceAs (Decidable ((d.isLoad = true → busy = false) ∧ d ≠ .abort ∧
      Unnested (busyStep busy d) ds))

theorem unnested_append {busy : Bool} {ds es : List Deed} :
    Unnested busy (ds ++ es) ↔ Unnested busy ds ∧ Unnested (ds.foldl busyStep busy) es := by
  induction ds generalizing busy with
  | nil => simp [Unnested]
  | cons d ds ih => simp [Unnested, ih, and_assoc]

/-- What a load does itself, to its end, makes what is held fit together. -/
theorem Block.coherent {path : Path} {block hist : List Deed} {s : Holding}
    (hb : Block (.load path :: block)) (hl : s.loaded = false) (ha : s.AdmitsAll block)
    (hn : .abort ∉ block) : (s.replay block).Coherent (hist ++ block) := by
  cases hb with
  | @loaded _ home ran a b c e hpa hpb hpc hpe =>
    have hran : ran = home := by
      rw [Holding.admitsAll_append, Holding.replay_of_isSteady _ hpa, Holding.admitsAll_cons,
        Holding.admitsAll_append, Holding.replay_of_isSteady _ hpb, Holding.admitsAll_cons] at ha
      exact (Option.some.inj ha.2.2.2.1).symm
    have hr : s.replay (a ++ .occupy home :: (b ++ .body ran path ::
        (c ++ .adopt path :: (e ++ [.succeed])))) = ⟨some home, some path, true⟩ := by
      simp only [Holding.replay_append, Holding.replay_cons, Holding.replay_of_isSteady _ hpa,
        Holding.replay_of_isSteady _ hpb, Holding.replay_of_isSteady _ hpc,
        Holding.replay_of_isSteady _ hpe]
      rfl
    rw [hr]
    refine ⟨by simp, by simp, fun _ => ⟨home, path, rfl, rfl, ?_⟩⟩
    simp [hran]
  | @failed _ mid hrising =>
    have hr : s.replay (mid ++ [.fail]) = {} := by
      have hloaded := s.loaded_replay_of_rising fun d hd => .inl (hrising d hd)
      rw [Holding.replay_append]
      exact congrArg (Holding.mk none none) (hloaded.trans hl)
    rw [hr]
    exact Holding.coherent_nothing _
  | aborted => exact absurd (by simp) hn

theorem Block.exists_end {path : Path} {block : List Deed} (hb : Block (.load path :: block)) :
    ∃ mid last, block = mid ++ [last] ∧ (∀ d ∈ mid, d.isRising) ∧ last.isEnd := by
  cases hb with
  | @loaded _ home ran a b c e hpa hpb hpc hpe =>
    refine ⟨a ++ .occupy home :: (b ++ .body ran path :: (c ++ .adopt path :: e)), .succeed,
      by simp, fun d hd => ?_, rfl⟩
    simp only [List.mem_append, List.mem_cons] at hd
    rcases hd with hd | rfl | hd | rfl | hd | rfl | hd
    · exact Deed.isRising_of_isSteady (hpa d hd)
    · rfl
    · exact Deed.isRising_of_isSteady (hpb d hd)
    · rfl
    · exact Deed.isRising_of_isSteady (hpc d hd)
    · rfl
    · exact Deed.isRising_of_isSteady (hpe d hd)
  | failed hrising => exact ⟨_, _, rfl, hrising, rfl⟩
  | aborted hrising => exact ⟨_, _, rfl, hrising, rfl⟩

/-- Outside a load, what is held fits together. Within a load, what is left to do of it makes it so. -/
def Fits (hist : List Deed) (s : Holding) : Bool → List Deed → Prop
  | false, own => (∀ d ∈ own, d.isPlain ∨ d = .vacate) ∧ s.Coherent hist
  | true, own => s.loaded = false ∧
    (∃ mid last, own = mid ++ [last] ∧ (∀ d ∈ mid, d.isRising) ∧ last.isEnd) ∧
    (.abort ∉ own → s.AdmitsAll own → (s.replay own).Coherent (hist ++ own))

theorem Block.fits {path : Path} {block hist : List Deed} {s : Holding}
    (hb : Block (.load path :: block)) (hl : s.loaded = false) : Fits hist s true block :=
  ⟨hl, hb.exists_end, fun hn ha => hb.coherent hl ha hn⟩

theorem Fits.quiet {hist own : List Deed} {s : Holding} {busy : Bool} (h : Fits hist s busy own)
    (d : Deed) : Fits (hist ++ [d]) s busy own := by
  cases busy with
  | false => exact ⟨h.1, h.2.mono (List.subset_append_left _ _)⟩
  | true =>
    refine ⟨h.1, h.2.1, fun hn ha => (h.2.2 hn ha).mono ?_⟩
    simp only [List.append_assoc, List.append_subset]
    exact ⟨List.subset_append_left _ _, fun d hd => by simp [hd]⟩

/-- Step: one deed of its own takes a load or an unloading on. -/
theorem Fits.step {hist own : List Deed} {s : Holding} {busy : Bool} {d : Deed}
    (h : Fits hist s busy (d :: own)) (ha : s.Admits d) (hn : d ≠ .abort) :
    Fits (hist ++ [d]) (s.step d) (busyStep busy d) own := by
  cases busy with
  | false =>
    obtain ⟨hown, hs⟩ := h
    have hrest : ∀ e ∈ own, e.isPlain ∨ e = .vacate := fun e he => hown e (by simp [he])
    rcases hown d (by simp) with hd | rfl
    · have hb : busyStep false d = false := by cases d <;> first | rfl | cases hd
      rw [hb, s.step_of_aside (.inl hd)]
      exact ⟨hrest, hs.mono (List.subset_append_left _ _)⟩
    · exact ⟨hrest, Holding.coherent_nothing _⟩
  | true =>
    obtain ⟨hl, ⟨mid, last, he, hm, hend⟩, hs⟩ := h
    cases mid with
    | nil =>
      obtain ⟨rfl, rfl⟩ := List.cons.inj he
      have hb : busyStep true d = false := by cases d <;> first | rfl | cases hend
      rw [hb]
      exact ⟨nofun, hs (by simpa using hn.symm) ⟨ha, trivial⟩⟩
    | cons e mid =>
      obtain ⟨rfl, rfl⟩ := List.cons.inj he
      have hd := hm d (by simp)
      have hb : busyStep true d = true := by cases d <;> first | rfl | cases hd
      have hl' : (s.step d).loaded = s.loaded := by cases d <;> first | rfl | cases hd
      rw [hb]
      refine ⟨hl'.trans hl, ⟨mid, last, rfl, fun e he => hm e (by simp [he]), hend⟩,
        fun hn' ha' => ?_⟩
      rw [List.append_assoc]
      exact hs (by simpa [hn.symm] using hn') ⟨ha, ha'⟩

theorem Fits.of_nil {hist : List Deed} {s : Holding} {busy : Bool} (h : Fits hist s busy []) :
    busy = false ∧ s.Coherent hist := by
  cases busy with
  | false => exact ⟨rfl, h.2⟩
  | true =>
    obtain ⟨_, ⟨mid, last, he, _⟩, _⟩ := h
    exact absurd he.symm (by simp)

/-- A block that begins where it can begin. -/
theorem Fits.enter {hist own block : List Deed} {s : Holding} {busy : Bool} {d : Deed}
    (h : Fits hist s busy own) (hb : Block (d :: block)) (ha : s.Admits d)
    (hu : d.isLoad = true → busy = false) :
    busy = false ∧ Fits (hist ++ [d]) s (busyStep busy d) block := by
  have free : s.loaded = true → busy = false := by
    intro hl
    cases busy with
    | false => rfl
    | true => exact absurd (h.1.symm.trans hl) Bool.false_ne_true
  have leave : (∀ e ∈ block, e.isPlain ∨ e = .vacate) → busy = false →
      Fits (hist ++ [d]) s false block := by
    rintro hblock rfl
    exact ⟨hblock, h.2.mono (List.subset_append_left _ _)⟩
  cases hb with
  | unload hplain =>
    have hbusy := free ha
    refine ⟨hbusy, ?_⟩
    subst hbusy
    exact leave (fun e he => .inl (hplain e he)) rfl
  | unloaded hplain _ =>
    have hbusy := free ha
    refine ⟨hbusy, ?_⟩
    subst hbusy
    refine leave (fun e he => ?_) rfl
    exact (List.mem_append.1 he).imp (hplain e) List.mem_singleton.1
  | loaded hpa hpb hpc hpe => exact ⟨hu rfl, (Block.loaded hpa hpb hpc hpe).fits ha⟩
  | @failed path _ hrising => exact ⟨hu rfl, (@Block.failed path _ hrising).fits ha⟩
  | @aborted path _ hrising => exact ⟨hu rfl, (@Block.aborted path _ hrising).fits ha⟩

/-- Run: where loads come one after another, what is held fits together whenever none is in
progress. -/
theorem Woven.fits {own ds : List Deed} (h : Woven own ds) {hist : List Deed} {s : Holding}
    {busy : Bool} (hf : Fits hist s busy own) (hu : Unnested busy ds) (ha : s.AdmitsAll ds) :
    Fits (hist ++ ds) (s.replay ds) (ds.foldl busyStep busy) [] := by
  induction h generalizing hist s busy with
  | nil => simpa using hf
  | @own d own ds _ ih =>
    have h' := ih (hf.step ha.1 hu.2.1) hu.2.2 ha.2
    simpa using h'
  | @quiet d own ds hd _ ih =>
    have hb : busyStep busy d = busy := by cases d <;> first | rfl | cases hd
    have h' := ih (hf.quiet d) (hb ▸ hu.2.2) (s.step_of_aside (.inr hd) ▸ ha.2)
    simpa [hb, s.step_of_aside (.inr hd)] using h'
  | @nested d block es own ds hb _ _ ihi ih =>
    have hs : s.step d = s := by cases hb <;> rfl
    have hes := Holding.admitsAll_append.1 (hs ▸ ha.2)
    have hus := unnested_append.1 hu.2.2
    obtain ⟨hbusy, hblock⟩ := hf.enter hb ha.1 hu.1
    have hinner := ihi hblock hus.1 hes.1
    obtain ⟨hdone, hcoherent⟩ := hinner.of_nil
    subst hbusy
    have hrest : Fits (hist ++ [d] ++ es) (s.replay es) false own := ⟨hf.1, hcoherent⟩
    have h' := ih hrest (hdone ▸ hus.2) hes.2
    simpa [hs, hdone] using h'

/-- Where loads come one after another, what is held fits together in the end. -/
theorem Woven.coherent {ds hist : List Deed} {s : Holding} (h : Woven [] ds) (hs : s.Coherent hist)
    (hu : Unnested false ds) (ha : s.AdmitsAll ds) : (s.replay ds).Coherent (hist ++ ds) := by
  have hf : Fits hist s false [] := ⟨nofun, hs⟩
  exact (h.fits hf hu ha).of_nil.2

namespace Op

/-- Requests of a host, one after another, whether or not they are granted. -/
def askAll (n : Nat) (qs : List Request) : Op Unit :=
  qs.forM fun q => discard (attempt (respond n q))

theorem follows_askAll (n : Nat) (qs : List Request) : (askAll n qs).Follows :=
  follows_forM (fun q => (follows_respond n q).attempt.discard) qs

theorem after_askAll_cons (n : Nat) (q : Request) (qs : List Request) (w : World) :
    (askAll n (q :: qs)).after w = (askAll n qs).after ((respond n q).after w) := by
  refine (after_bind_of_ok rfl _).trans ?_
  rw [after_discard, after_attempt]
  rfl

theorem deeds_askAll_cons (n : Nat) (q : Request) (qs : List Request) (w : World) :
    (askAll n (q :: qs)).deeds w =
      (respond n q).deeds w ++ (askAll n qs).deeds ((respond n q).after w) := by
  have h := ((follows_respond n q).does w).leads.trans
    ((follows_askAll n qs).does ((respond n q).after w)).leads
  rw [deeds, after_askAll_cons]
  exact h.deeds_eq.symm

/-- What every answer keeps is kept by one after another. -/
theorem keeps_askAll {P : World → Prop} {n : Nat}
    (h : (respond n).Alike (World.Only P) (respond n)) (qs : List Request) {w : World} (hw : P w) :
    P ((askAll n qs).after w) :=
  (alike_forM (fun q => (h q).attempt.discard) qs w w ⟨rfl, hw⟩).2.2

/-- Whatever foreign code asks for meanwhile, what a session holds fits together in the end iff what
stands in its history does; and it does where loads come one after another. -/
theorem coherent_after_iff (n : Nat) (qs : List Request) (w : World) (hw : w.Fresh) :
    (((askAll n qs).after w).Coherent ↔ Balanced ((askAll n qs).after w).history.toList) ∧
    (Unnested false ((askAll n qs).after w).history.toList →
      ((askAll n qs).after w).Coherent) := by
  have h := ((follows_askAll n qs).does w).leads
  have hd : ((askAll n qs).after w).history.toList = (askAll n qs).deeds w := by
    rw [h.history, hw.history]
    rfl
  have hs : ((askAll n qs).after w).session.holding = Holding.replay {} ((askAll n qs).deeds w) := by
    rw [h.holding, hw.holding]
  unfold World.Coherent
  rw [hs, hd]
  refine ⟨Holding.coherent_replay_iff, fun hu => ?_⟩
  have hnothing := Holding.coherent_nothing ([] : List Deed)
  exact h.woven.coherent hnothing hu (hw.holding ▸ h.admits)

/-- A listener loads another script whenever a fault is reported. -/
def fallback : World where
  files := (default : Files.Node).put (.file (Text.encode "x = 1")) ["b.lua"]
  objects := #[.absent, .callable ⟨"function", "<function>", fun _ =>
    Program.request (.load (.text "b.lua")), none⟩]
  session := { listeners := [1] }

/-- The listener hears of nothing as long as no load fails. -/
theorem coherent_after_load_of_other : fallback.Fresh ∧
    ((askAll 5 [.load (.text "b.lua"), .unload]).after fallback).Coherent := by
  have hw : fallback.Fresh := ⟨rfl, rfl⟩
  refine ⟨hw, (coherent_after_iff 5 [.load (.text "b.lua"), .unload] fallback hw).2 ?_⟩
  decide +kernel

/-- The script that the listener loads loses its environment to the load that failed, and is still
loaded. -/
theorem not_coherent_after_fallback :
    (respond 5 (.load (.text "a.lua"))).Ends fallback ∧
      ¬ ((askAll 5 [.load (.text "a.lua")]).after fallback).Coherent := by
  have hends : (respond 5 (.load (.text "a.lua"))).Ends fallback := by decide +kernel
  have hloaded : ((askAll 5 [.load (.text "a.lua")]).after fallback).session.loaded = true := by
    decide +kernel
  have hhome : ((askAll 5 [.load (.text "a.lua")]).after fallback).session.environment = none := by
    decide +kernel
  refine ⟨hends, fun h => ?_⟩
  have he := h.loaded_iff.1 hloaded
  rw [hhome] at he
  exact Bool.false_ne_true he

end Op

end ScriptHost
