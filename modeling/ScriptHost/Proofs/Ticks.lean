import ScriptHost.Proofs.Arrivals
import ScriptHost.Proofs.Emissions
import ScriptHost.Proofs.Reloading
import ScriptHost.Proofs.Restraint

/-!
# Ticks

A tick lets the clock go on, works off the queue, and then tells its number to all that are
connected by then (`tick_of_ends`). Where foreign code leaves the queue alone it is empty in the end
(`applyPending_drains`). A script that was loaded again has taken the place of the one before, and
nothing of what that listened to is left (`renewed_of_applyPending`).
-/
namespace ScriptHost

open Files (Path)

namespace World

/-- One world is later than another, with whole calls in between. -/
def Reaches (w v : World) : Prop :=
  ∃ ds, Leads w [] ds v

variable {w v u : World}

theorem Reaches.refl (w : World) : Reaches w w :=
  ⟨[], .refl w⟩

theorem Reaches.trans (h : Reaches w v) (h' : Reaches v u) : Reaches w u := by
  obtain ⟨_, h⟩ := h
  obtain ⟨_, h'⟩ := h'
  exact ⟨_, h.trans h'⟩

theorem Reaches.history (h : Reaches w v) : w.history.toList <+: v.history.toList := by
  obtain ⟨ds, h⟩ := h
  exact ⟨ds, h.history.symm⟩

theorem Reaches.size_le (h : Reaches w v) : w.history.size ≤ v.history.size :=
  h.history.length_le

theorem Reaches.longer (h : Reaches w v) : Longer w v := by
  obtain ⟨_, h⟩ := h
  exact ⟨h.grown.events, h.grown.known⟩

/-- The clock has gone on by one. -/
def ticking (w : World) : World :=
  { w with application := { w.application with tick := w.application.tick + 1 } }

theorem reaches_ticking (w : World) : Reaches w w.ticking :=
  have h : Still w w.ticking := ⟨.of_eq rfl rfl rfl rfl rfl, rfl, rfl, rfl, rfl⟩
  ⟨[], h.leads⟩

/-- The books are in order, the history tells which events are connected to the signal of ticks, and
there is such a signal. -/
structure Ready (w : World) : Prop where
  tidy : w.Tidy
  faithful : Faithful "tick" w
  bell : w.signals.contains "tick"

theorem Ready.onward (h : w.Ready) (hr : Reaches w v) (hw : Witnessed "tick" w v) : v.Ready where
  tidy := by
    obtain ⟨_, hr⟩ := hr
    exact (hr.links h.tidy).tidy
  faithful := hw.1
  bell := (hw.2.contains "tick").trans h.bell

/-- Nothing has happened so far, and no event is connected. -/
structure Unheard (w : World) : Prop extends Fresh w where
  active : w.eventBooks.active = {}
  nodup : ∀ {signal hs}, w.signals.find? signal = some hs → hs.Nodup
  silent : ∀ {signal hs event}, w.signals.find? signal = some hs → .event event ∉ hs
  bell : w.signals.contains "tick"

theorem Unheard.ready (h : w.Unheard) : w.Ready where
  tidy :=
    { nodup := h.nodup
      owned := fun hf hm => absurd hm (h.silent hf)
      known := fun hx => by
        rw [h.active] at hx
        cases hx
      housed := fun he => nomatch (congrArg Holding.environment h.holding).symm.trans he }
  faithful := faithful_of_nil h.history h.nodup h.silent
  bell := h.bell

/-- What holds the script is what it was where no load and no unloading has begun. -/
theorem Leads.holding_eq {ds : List Deed} (h : Leads w [] ds v)
    (hn : ∀ d ∈ ds, d.isStart = false) : v.session.holding = w.session.holding :=
  h.holding.trans (h.woven.replay_eq (Woven.alone_of_none hn []) _)

end World

/-- A session that has been given up holds an environment that has come since, or none. -/
theorem Holding.occupy_mem_of_environment {s : Holding} {ds : List Deed} {home : Nat}
    (hv : .vacate ∈ ds) (h : (s.replay ds).environment = some home) : .occupy home ∈ ds := by
  induction ds using List.reverseRecOn with
  | nil => cases hv
  | append_singleton ds d ih =>
    rw [replay_append] at h
    rw [List.mem_append, List.mem_singleton] at hv ⊢
    cases d with
    | occupy new =>
      have hn : new = home := Option.some.inj h
      exact .inr (congrArg Deed.occupy hn.symm)
    | vacate => cases h
    | fail => cases h
    | _ => exact .inl (ih (hv.resolve_right nofun) h)

namespace Op

open World

variable {host : Responder} {w : World}

/-! ### Working off the queue -/

/-- Inversion: a queue that is worked off is worked off path by path. -/
theorem exists_of_applyPendingWithin {n : Nat} {p : Path} {ps qs : List Path}
    (hw : w.pending = p :: ps) (ho : (applyPendingWithin host (n + 1)).outcome w = .ok qs) :
    ∃ b more, (reloadIfCurrent host p).outcome { w with pending := ps } = .ok b ∧
      (applyPendingWithin host n).outcome
        ((reloadIfCurrent host p).after { w with pending := ps }) = .ok more ∧
      qs = (if b then p :: more else more) ∧
      (applyPendingWithin host (n + 1)).after w =
        (applyPendingWithin host n).after
          ((reloadIfCurrent host p).after { w with pending := ps }) := by
  have h := ho
  rw [applyPendingWithin, outcome_get_bind] at h
  simp only [hw] at h
  rw [outcome_modify_bind] at h
  obtain ⟨b, hb, h, -⟩ := exists_of_bind_ok h
  obtain ⟨more, hm, -, -⟩ := exists_of_bind_ok h
  obtain ⟨ho', ha⟩ := applyPendingWithin_of_cons hw hb rfl hm
  exact ⟨b, more, hb, hm, Except.ok.inj (ho.symm.trans ho'), ha⟩

/-- If foreign code leaves clock and queue alone, a queue that is worked off is empty in the end. -/
theorem applyPendingWithin_drains (hh : ∀ base, host.Alike (Only (Timed base)) host) {n : Nat}
    (hn : w.pending.length ≤ n) (he : (applyPendingWithin host n).Ends w) :
    ((applyPendingWithin host n).after w).pending = [] ∧
      ((applyPendingWithin host n).after w).application.tick = w.application.tick := by
  induction n generalizing w with
  | zero => exact ⟨List.length_eq_zero_iff.1 (Nat.le_zero.1 hn), rfl⟩
  | succ n ih =>
    cases hp : w.pending with
    | nil =>
      rw [(applyPendingWithin_of_nil (n + 1) hp).2]
      exact ⟨hp, rfl⟩
    | cons p ps =>
      obtain ⟨qs, ho⟩ := ends_iff.1 he
      obtain ⟨b, more, -, hm, -, ha⟩ := exists_of_applyPendingWithin hp ho
      let w₁ : World := { w with pending := ps }
      have hloose := (loose_timed w₁).bond
      have ht : Timed w₁ ((reloadIfCurrent host p).after w₁) :=
        alike_only_iff.1 (alike_reloadIfCurrent hloose.toBond (governs_timed (hh w₁)) p) w₁
          ⟨rfl, rfl⟩
      have hlen : ((reloadIfCurrent host p).after w₁).pending.length ≤ n := by
        rw [ht.2]
        rw [hp, List.length_cons] at hn
        exact Nat.le_of_succ_le_succ hn
      obtain ⟨hempty, htick⟩ := ih hlen (ends_iff.2 ⟨more, hm⟩)
      rw [ha]
      exact ⟨hempty, htick.trans ht.1⟩

/-- The world in which a tick is told: the clock has gone on, and the queue has been worked off. -/
def ripe (host : Responder) (w : World) : World :=
  (applyPending host).after w.ticking

theorem applyPending_drains (hh : ∀ base, host.Alike (Only (Timed base)) host)
    (he : (applyPending host).Ends w.ticking) :
    (ripe host w).pending = [] ∧ (ripe host w).application.tick = w.application.tick + 1 :=
  applyPendingWithin_drains hh (Nat.le_add_left ..) he

/-! ### What a reload leaves -/

theorem follows_reloadIfCurrent (hh : host.Follows) (p : Path) : (reloadIfCurrent host p).Follows :=
  follows_iff_alike.2 fun base => alike_reloadIfCurrent (bond_trail base) (governs_trail hh base) p

/-- A script that is loaded again has been given up before, and what it listened to is forgotten. -/
theorem given_up_of_load (hh : host.Follows) {p : Path} (hl : w.session.loaded = true) {b : Bool}
    (ho : (load host (.text p.toString)).outcome w = .ok b) :
    .vacate ∈ (load host (.text p.toString)).deeds w ∧
      .forget ∈ (load host (.text p.toString)).deeds w := by
  obtain ⟨ho', ha⟩ := load_of_loaded host p.toString hl
  obtain ⟨_, hu, -, ha'⟩ := exists_of_bind_ok (ho'.symm.trans ho)
  have hends : (unload host).Ends w := ends_iff.2 ⟨_, hu⟩
  obtain ⟨hooks, home, hdoes, -, -⟩ := does_unload hh hl ((ends_unload_iff hl).1 hends)
  have hsub : (unload host).deeds w ⊆ (load host (.text p.toString)).deeds w := by
    rw [deeds, deeds, ha, ha']
    have hmore := (follows_loadPath hh (Path.ofString p.toString) (loaded_after_unload hends)).leads
    rw [hmore.history, hdoes.leads.history, List.append_assoc, List.drop_left' (by simp),
      List.drop_left' (by simp)]
    exact List.subset_append_left _ _
  refine ⟨hsub (hdoes.leads.woven.subset ?_), hsub (forget_mem_deeds_unload hh hl hu)⟩
  simp [farewell]

/-- Inversion: what is reloaded was loaded, and is loaded again. -/
theorem exists_of_reloadIfCurrent {p : Path}
    (ho : (reloadIfCurrent host p).outcome w = .ok true) :
    w.session.loaded = true ∧ (load host (.text p.toString)).outcome w = .ok true ∧
      ((reloadIfCurrent host p).after w).history =
        ((load host (.text p.toString)).after w).history := by
  have hc : w.current = some p := by
    by_contra hne
    exact Bool.false_ne_true (Except.ok.inj ((reloadIfCurrent_of_ne host hne).1.symm.trans ho))
  have hl : w.session.loaded = true := by
    unfold current at hc
    by_contra hn
    rw [if_neg hn] at hc
    cases hc
  cases hr : (load host (.text p.toString)).outcome w with
  | ok b =>
    obtain ⟨ho', l, ha⟩ := reloadIfCurrent_of_eq hc hr
    rw [Except.ok.inj (ho'.symm.trans ho), ha]
    exact ⟨hl, rfl, rfl⟩
  | error f =>
    have hn : (!w.session.loaded || decide (w.session.path.map (Path.resolve w.cwd) ≠ some p)) =
        false := by
      unfold current at hc
      simpa [hl] using hc
    rw [reloadIfCurrent, outcome_get_bind] at ho
    simp only [hn, Bool.false_eq_true, if_false] at ho
    rw [outcome_bind_of_error hr] at ho
    cases ho

/-- Working off the queue has whole calls for its deeds. If a script was loaded again, the one
before has been given up, and what it listened to is forgotten. -/
theorem exists_leads_applyPendingWithin (hh : host.Follows) {n : Nat} {qs : List Path}
    (ho : (applyPendingWithin host n).outcome w = .ok qs) :
    ∃ ds, Leads w [] ds ((applyPendingWithin host n).after w) ∧
      (qs ≠ [] → .vacate ∈ ds ∧ .forget ∈ ds) := by
  induction n generalizing w qs with
  | zero =>
    obtain rfl : [] = qs := Except.ok.inj ho
    exact ⟨[], .refl w, fun h => absurd rfl h⟩
  | succ n ih =>
    cases hp : w.pending with
    | nil =>
      have hnil : (applyPendingWithin host (n + 1)).outcome w = .ok [] ∧
          (applyPendingWithin host (n + 1)).after w = w := applyPendingWithin_of_nil (n + 1) hp
      obtain ⟨ho', ha⟩ := hnil
      obtain rfl : [] = qs := Except.ok.inj (ho'.symm.trans ho)
      refine ⟨[], ?_, fun h => absurd rfl h⟩
      rw [ha]
      exact .refl w
    | cons p ps =>
      obtain ⟨b, more, hb, hm, rfl, ha⟩ := exists_of_applyPendingWithin hp ho
      let w₁ : World := { w with pending := ps }
      have hstill : Still w w₁ := ⟨.of_eq rfl rfl rfl rfl rfl, rfl, rfl, rfl, rfl⟩
      obtain ⟨es, hes, hgone⟩ := ih hm
      obtain ⟨ds, hds⟩ := follows_reloadIfCurrent hh p w₁
      refine ⟨[] ++ ds ++ es, ha ▸ (hstill.leads.trans hds).trans hes, fun hne => ?_⟩
      cases b with
      | false =>
        obtain ⟨hv, hf⟩ := hgone hne
        exact ⟨List.mem_append_right _ hv, List.mem_append_right _ hf⟩
      | true =>
        obtain ⟨hl, hload, hsame⟩ := exists_of_reloadIfCurrent hb
        obtain ⟨hv, hf⟩ := given_up_of_load hh hl hload
        have hd : (load host (.text p.toString)).deeds w₁ = ds := by
          rw [hds.deeds_eq, deeds, hsame]
        rw [hd] at hv hf
        exact ⟨List.mem_append_left _ hv, List.mem_append_left _ hf⟩
theorem follows_applyPending (hh : host.Follows) : (applyPending host).Follows :=
  follows_iff_alike.2 fun base =>
    alike_applyPending (bond_trail base) (governs_trail hh base) (restless_trail base)

theorem reaches_ripe (hh : host.Follows) (w : World) : w.Reaches (ripe host w) :=
  w.reaches_ticking.trans (follows_applyPending hh w.ticking)

/-- A script that a tick has loaded again is in an environment opened since, and what the one before
listened to is connected only if it has begun to come in anew. -/
theorem renewed_of_applyPending (hh : host.Follows) (ht : w.Tidy) {qs : List Path}
    (ho : (applyPending host).outcome w.ticking = .ok qs) (hq : qs ≠ []) :
    (∀ {home}, (ripe host w).session.environment = some home → w.homes.size ≤ home) ∧
      ∀ x ∈ w.eventBooks.active.entries, (ripe host w).Connected x.2 →
        .attach x.2 ∈ (ripe host w).history.toList.drop w.history.size := by
  obtain ⟨ds, h, hgone⟩ := exists_leads_applyPendingWithin hh (w := w.ticking) ho
  change Leads w.ticking [] ds (ripe host w) at h
  obtain ⟨hv, hf⟩ := hgone hq
  have hd : ds = (ripe host w).history.toList.drop w.history.size := h.deeds_eq
  have ht' : w.ticking.Tidy := ⟨ht.nodup, ht.owned, ht.known, ht.housed⟩
  refine ⟨fun he => ?_, fun x hx hc => hd ▸ (h.links ht').dropped hf x hx hc⟩
  rw [show (ripe host w).session.environment = _ from congrArg Holding.environment h.holding] at he
  exact (h.occupied (Holding.occupy_mem_of_environment hv he)).resolve_left List.not_mem_nil

/-! ### Telling a tick -/

/-- An emission ends once there is such a signal, whatever becomes of its handlers. -/
theorem ends_emit {signal : String} {hs : Handlers} (hf : w.signals.find? signal = some hs)
    (args : List Datum) : (emit host signal args).Ends w := by
  obtain ⟨ho, -⟩ := handlers_of_find? hf
  obtain ⟨_, hc⟩ := ends_iff.1 (ends_callHandlers signal args hs ((handlers signal).after w))
  exact ends_bind_iff.2 ⟨hs, ho, ends_bind_iff.2 ⟨_, hc, rfl⟩⟩

/-- Once the queue has been worked off, a tick is told to all that are connected, whatever becomes
of them. -/
theorem tick_of_ends (he : (applyPending host).Ends w.ticking) {hs : Handlers}
    (hf : (ripe host w).signals.find? "tick" = some hs) :
    (tick host).Ends w ∧ (tick host).after w =
      (callHandlers host "tick" [.int (ripe host w).application.tick] hs).after (ripe host w) := by
  obtain ⟨qs, ho⟩ := ends_iff.1 he
  have hemit : (emit host "tick" [.int (ripe host w).application.tick]).Ends (ripe host w) :=
    ends_emit hf _
  have hd : (discard (applyPending host)).outcome w.ticking = .ok () := by
    obtain ⟨_, hd⟩ := ends_iff.1 (ends_discard_iff.2 he)
    exact hd
  have ha : (discard (applyPending host)).after w.ticking = ripe host w := after_discard _ _
  constructor
  · refine ends_bind_iff.2 ⟨(), rfl, ends_bind_iff.2 ⟨(), hd, ?_⟩⟩
    change Ends _ ((discard (applyPending host)).after w.ticking)
    rw [ha]
    exact ends_bind_iff.2 ⟨_, rfl, ends_discard_iff.2 hemit⟩
  · unfold tick modifyApplication
    rw [after_modify_bind]
    change (discard (applyPending host) >>= _).after w.ticking = _
    rw [after_bind_of_ok hd, ha, after_get_bind, after_discard, after_emit_of_find? hf]

/-- Where no load and no unloading begins in the course of an emission, its calls all find the
script that was there when it began. -/
theorem holding_of_calledIn {signal : String} {args : List Datum} {h : Handler} {x : World}
    (hh : host.Follows)
    (hp : ((emit host signal args).after w).history.toList.countP Deed.isStart =
      w.history.toList.countP Deed.isStart)
    (hc : CalledIn host signal args w h x) : x.session.holding = w.session.holding := by
  obtain ⟨pre, post, hf, rfl⟩ := hc
  have follows : ∀ hs, (callHandlers host signal args hs).Follows := follows_callHandlers hh
  obtain ⟨ds, hds⟩ := follows pre w
  obtain ⟨es, hes⟩ := follows (h :: post) ((callHandlers host signal args pre).after w)
  rw [after_emit_of_find? hf, after_callHandlers_append, hes.history, hds.history,
    List.countP_append, List.countP_append] at hp
  refine hds.holding_eq fun d hd => ?_
  have hzero : ds.countP Deed.isStart = 0 := by omega
  simpa using List.countP_eq_zero.1 hzero d hd

end Op

end ScriptHost
