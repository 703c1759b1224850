import ScriptHost.Proofs.Coherence
import ScriptHost.Proofs.Course
import ScriptHost.Proofs.Watching

/-!
# Reloads at a quiet moment

The queue of changed files holds each path once, however it is spelled, in the order in which the
paths came first. When it is worked off, the script that is loaded is loaded again if its path is
among them, and nothing else happens (`applyPending_of_queued`).
-/
namespace ScriptHost

open Files (Path isName isPart)

/-! ### Resolved paths -/

namespace Files

theorem isName_of_isPart {x : String} (h : isPart x) (hd : x ≠ "..") : isName x := by
  simp only [isName, isPart, Bool.and_eq_true, decide_eq_true_eq] at h ⊢
  exact ⟨⟨h.1, hd⟩, h.2⟩

namespace Path

/-- The one path a path stands for: absolute, and without double dots. -/
structure Resolved (p : Path) : Prop where
  root : p.root = "/"
  names : ∀ x ∈ p.parts, isName x

theorem isName_of_mem_walk (here : List String) {names : List String} (hh : ∀ x ∈ here, isName x)
    (hn : ∀ x ∈ names, isPart x) : ∀ x ∈ walk here names, isName x := by
  induction names generalizing here with
  | nil => exact hh
  | cons name names ih =>
    rw [List.forall_mem_cons] at hn
    rw [walk_cons]
    refine ih _ (fun x hx => ?_) hn.2
    split at hx
    · exact hh x (List.mem_of_mem_dropLast hx)
    · next hd =>
      rcases List.mem_append.1 hx with hx | hx
      · exact hh x hx
      · rw [List.mem_singleton.1 hx]
        exact isName_of_isPart hn.1 hd

/-- Names lead straight down. -/
theorem walk_of_isName {names : List String} (hn : ∀ x ∈ names, isName x) (here : List String) :
    walk here names = here ++ names := by
  induction names generalizing here with
  | nil => exact (List.append_nil here).symm
  | cons name names ih =>
    rw [List.forall_mem_cons] at hn
    rw [walk_cons, if_neg (ne_dots_of_isName hn.1), ih hn.2, List.append_assoc,
      List.singleton_append]

theorem resolved_resolve {cwd p : Path} (hc : cwd.Formed) (hp : p.Formed) :
    (resolve cwd p).Resolved := by
  refine ⟨rfl, isName_of_mem_walk [] nofun fun x hx => ?_⟩
  unfold join at hx
  split at hx
  · exact hp.parts x hx
  · exact (List.mem_append.1 hx).elim (hc.parts x) (hp.parts x)

variable {p : Path}

theorem Resolved.formed (h : p.Resolved) : p.Formed where
  root := by simp [h.root]
  parts x hx := isPart_of_isName (h.names x hx)

/-- What has been resolved stands for itself, wherever it is seen from. -/
theorem Resolved.resolve_eq (h : p.Resolved) (cwd : Path) : resolve cwd p = p := by
  have ha : p.isAbsolute := by simp [isAbsolute, h.root]
  have hw : normal p.parts = p.parts := walk_of_isName h.names []
  rw [resolve, join, if_pos ha, hw, ← h.root]

end Path

end Files

/-! ### The queue -/

/-- A queue holds what has been put in it, each path where it came first. -/
theorem foldl_enqueue (ps : List Path) : ps.foldl enqueue [] = ps.eraseDups := by
  induction ps using List.reverseRecOn with
  | nil => rfl
  | append_singleton ps p ih =>
    rw [List.foldl_concat, ih, List.eraseDups_append, enqueue, List.removeAll]
    by_cases hp : p ∈ ps
    · simp [hp]
    · simp [hp, List.eraseDups_cons]

theorem nodup_foldl_enqueue {queue : List Path} (hq : queue.Nodup) (ps : List Path) :
    (ps.foldl enqueue queue).Nodup := by
  induction ps generalizing queue with
  | nil => exact hq
  | cons p ps ih => exact ih (nodup_enqueue hq p)

/-- The path of the script that is loaded, resolved. -/
def World.current (w : World) : Option Path :=
  if w.session.loaded then w.session.path.map (Path.resolve w.cwd) else none

/-- The paths that texts stand for, each once, for those that stand for one. -/
def World.resolving (w : World) (texts : List String) : List Path :=
  ((texts.filter fun text => Askable text).map fun text =>
    Path.resolve w.cwd (Path.ofString text)).eraseDups

theorem Deed.isLoad_of_isRising {d : Deed} (h : d.isRising) : d.isLoad = false := by
  cases d <;> first | rfl | cases h

namespace Op

open World

variable {host : Responder}

/-- A text that stands for no path stays out of the queue. -/
theorem queueReload_of_not_askable {text : String} (ht : ¬ Askable text) (w : World) :
    (queueReload text).outcome w = .error (.nullInPath "lstat") ∧
      (queueReload text).after w = w := by
  obtain ⟨ho, ha⟩ := resolvePath_of_not_askable ht w
  exact ⟨outcome_bind_of_error ho _, (after_bind_of_error ho _).trans ha⟩

theorem queues_request (n : Nat) (text : String) :
    (discard (attempt (respond (n + 1) (.queue text))) : Op Unit).Queues
      ([text].filter fun text => Askable text) := by
  intro w
  refine ⟨rfl, ?_⟩
  rw [after_discard, after_attempt]
  show ∃ l, (queueReload text >>= fun _ => pure Datum.none).after w = _
  by_cases ht : Askable text
  · obtain ⟨ho, l, ha⟩ := queues_queueReload ht w
    rw [after_bind_of_ok ho, after_pure, ha]
    exact ⟨l, by simp [ht]⟩
  · obtain ⟨ho, ha⟩ := queueReload_of_not_askable ht w
    rw [after_bind_of_error ho, ha]
    exact ⟨w.log, by simp [ht, queueing]⟩

theorem queues_askAll (n : Nat) (texts : List String) :
    (askAll (n + 1) (texts.map .queue)).Queues (texts.filter fun text => Askable text) := by
  induction texts with
  | nil => exact queues_pure
  | cons text texts ih =>
    have h := (queues_request n text).bind (k := fun _ => askAll (n + 1) (texts.map .queue)) ih
    rwa [← List.filter_append] at h

/-! ### Passing over -/

/-- The entry in the log for a path that is not that of the script. -/
def passedOver (p : Path) : LogEntry :=
  ⟨.debug, "luahost.reload", s!"Not the loaded script, skipping: {p}", none⟩

/-- The world in which paths have been passed over and others wait. -/
def reaching (w : World) (ps rest : List Path) : World :=
  { w with pending := rest, log := w.log ++ (ps.map passedOver).toArray }

theorem reaching_cons (w : World) (p : Path) (ps rest : List Path) :
    reaching (reaching w [p] (ps ++ rest)) ps rest = reaching w (p :: ps) rest := by
  simp [reaching]

theorem reaching_nil {w : World} {rest : List Path} (hw : w.pending = rest) :
    reaching w [] rest = w := by
  simp [reaching, ← hw]

theorem reloadIfCurrent_of_ne (host : Responder) {p : Path} {w : World} (h : w.current ≠ some p) :
    (reloadIfCurrent host p).outcome w = .ok false ∧
      (reloadIfCurrent host p).after w = reaching w [p] w.pending := by
  have hn : (!w.session.loaded || decide (w.session.path.map (Path.resolve w.cwd) ≠ some p)) =
      true := by
    unfold current at h
    cases hl : w.session.loaded with
    | false => rfl
    | true => simpa [hl] using h
  rw [reloadIfCurrent, outcome_get_bind, after_get_bind]
  simp only [hn, if_true]
  exact ⟨rfl, rfl⟩

/-- The script that is loaded is loaded again. -/
theorem reloadIfCurrent_of_eq {p : Path} {w : World} (h : w.current = some p) {b : Bool}
    (ho : (load host (.text p.toString)).outcome w = .ok b) :
    (reloadIfCurrent host p).outcome w = .ok b ∧
      ∃ l, (reloadIfCurrent host p).after w =
        { (load host (.text p.toString)).after w with log := l } := by
  have hn : (!w.session.loaded || decide (w.session.path.map (Path.resolve w.cwd) ≠ some p)) =
      false := by
    unfold current at h
    cases hl : w.session.loaded with
    | false => simp [hl] at h
    | true => simpa [hl] using h
  rw [reloadIfCurrent, outcome_get_bind, after_get_bind]
  simp only [hn, Bool.false_eq_true, if_false]
  rw [outcome_bind_of_ok ho, after_bind_of_ok ho]
  cases b with
  | true => exact ⟨rfl, _, rfl⟩
  | false => exact ⟨rfl, _, rfl⟩

/-- Step: one path is taken from the queue. -/
theorem applyPendingWithin_of_cons {n : Nat} {p : Path} {ps more : List Path} {b : Bool}
    {w v : World} (hw : w.pending = p :: ps)
    (ho : (reloadIfCurrent host p).outcome { w with pending := ps } = .ok b)
    (ha : (reloadIfCurrent host p).after { w with pending := ps } = v)
    (hm : (applyPendingWithin host n).outcome v = .ok more) :
    (applyPendingWithin host (n + 1)).outcome w = .ok (if b then p :: more else more) ∧
      (applyPendingWithin host (n + 1)).after w = (applyPendingWithin host n).after v := by
  rw [applyPendingWithin, outcome_get_bind, after_get_bind]
  simp only [hw]
  rw [outcome_modify_bind, after_modify_bind, outcome_bind_of_ok ho, after_bind_of_ok ho, ha,
    outcome_bind_of_ok hm, after_bind_of_ok hm]
  exact ⟨rfl, rfl⟩

theorem applyPendingWithin_of_nil (n : Nat) {w : World} (hw : w.pending = []) :
    (applyPendingWithin host n).outcome w = .ok [] ∧ (applyPendingWithin host n).after w = w := by
  cases n with
  | zero => exact ⟨rfl, rfl⟩
  | succ n =>
    rw [applyPendingWithin, outcome_get_bind, after_get_bind]
    simp only [hw]
    exact ⟨rfl, rfl⟩

/-- Run: paths that are not that of the script are passed over. -/
theorem applyPendingWithin_of_passing (rest : List Path) {n : Nat} {ps more : List Path}
    {w : World} (hw : w.pending = ps ++ rest) (hp : ∀ p ∈ ps, w.current ≠ some p)
    (hm : (applyPendingWithin host n).outcome (reaching w ps rest) = .ok more) :
    (applyPendingWithin host (n + ps.length)).outcome w = .ok more ∧
      (applyPendingWithin host (n + ps.length)).after w =
        (applyPendingWithin host n).after (reaching w ps rest) := by
  induction ps generalizing w with
  | nil =>
    have hr : reaching w [] rest = w := reaching_nil hw
    rw [hr] at hm ⊢
    exact ⟨hm, rfl⟩
  | cons p ps ih =>
    rw [List.forall_mem_cons] at hp
    let v := reaching w [p] (ps ++ rest)
    obtain ⟨ho, ha⟩ := reloadIfCurrent_of_ne host
      (w := { w with pending := ps ++ rest }) hp.1
    rw [← reaching_cons] at hm ⊢
    obtain ⟨hmo, hma⟩ := ih (w := v) rfl hp.2 hm
    obtain ⟨ho', ha'⟩ := applyPendingWithin_of_cons hw ho ha hmo
    exact ⟨ho', ha'.trans hma⟩

/-! ### Loading again -/

/-- A script is loaded again without a fault, and nobody else loads, unloads or puts anything in the
queue meanwhile. -/
structure Reloads (host : Responder) (p : Path) (w : World) : Prop where
  ends : (load host (.text p.toString)).Ends w
  alone : Woven.Alone [.unload, .load p] ((load host (.text p.toString)).deeds w)
  queue : ((load host (.text p.toString)).after w).pending = w.pending

/-- What a load has come to is seen from the deeds that are its own. -/
theorem exists_does_loadPath (hh : host.Follows) {path : Path} {w : World} {b : Bool}
    (hl : w.session.loaded = false) (ho : (loadPath host path).outcome w = .ok b) :
    ∃ own, (loadPath host path).Does w (.load path :: own) ∧
      (∀ d ∈ own, d.isLoad = false) ∧
      ∀ s : Holding, s.loaded = false →
        (s.replay own).loaded = b ∧ (b = true → (s.replay own).path = some path) := by
  rw [outcome_loadPath] at ho
  have hopen := leads_opening path hl
  have ha := after_loadPath_of_ok ho
  have rising {ds : List Deed} (h : ∀ d ∈ ds, d.isSteady) (d : Deed) (hd : d ∈ ds) :
      d.isLoad = false := Deed.isLoad_of_isRising (Deed.isRising_of_isSteady (h d hd))
  rcases bringUp_cases hh path (opening path w) with
    ⟨ho', home, ran, x, y, z, hx, hy, hz, -, ds, hup⟩ | ⟨ho', mid, hrising, -, ds, hup⟩ | ⟨hn, -⟩
  · obtain rfl : b = true := Except.ok.inj (ho.symm.trans ho')
    refine ⟨x ++ .occupy home :: (y ++ .body ran path :: .adopt path :: (z ++ [.succeed])),
      ⟨_, ha ▸ hopen.trans hup⟩, fun d hd => ?_, fun s _ => ?_⟩
    · simp only [List.mem_append, List.mem_cons, List.not_mem_nil, or_false] at hd
      rcases hd with hd | rfl | hd | rfl | rfl | hd | rfl
      · exact rising hx d hd
      · rfl
      · exact rising hy d hd
      · rfl
      · rfl
      · exact rising hz d hd
      · rfl
    · simp [Holding.replay_of_isSteady _ hx, Holding.replay_of_isSteady _ hy,
        Holding.replay_of_isSteady _ hz, Holding.step]
  · obtain rfl : b = false := Except.ok.inj (ho.symm.trans ho')
    refine ⟨mid ++ [.fail], ⟨_, ha ▸ hopen.trans hup⟩, fun d hd => ?_, fun s hs => ?_⟩
    · simp only [List.mem_append, List.mem_singleton] at hd
      rcases hd with hd | rfl
      · exact Deed.isLoad_of_isRising (hrising d hd)
      · rfl
    · have hloaded := s.loaded_replay_of_rising fun d hd => .inl (hrising d hd)
      rw [Holding.replay_append]
      exact ⟨hloaded.trans hs, fun h => absurd h Bool.false_ne_true⟩
  · exact absurd (ends_iff.2 ⟨b, ho⟩) hn

/-- The path of a script that is loaded again stays the one it was, and is none where the load has
failed. -/
theorem current_after_load (hh : host.Follows) {p : Path} (hp : p.Resolved) {w : World}
    (hl : w.session.loaded = true) (h : Reloads host p w) {b : Bool}
    (ho : (load host (.text p.toString)).outcome w = .ok b) :
    ((load host (.text p.toString)).after w).current = (if b then some p else none) ∧
      ((load host (.text p.toString)).deeds w).filter Deed.isLoad = [.load p] := by
  obtain ⟨ho', ha⟩ := load_of_loaded host p.toString hl
  rw [Path.ofString_toString hp.formed] at ho' ha
  obtain ⟨_, hu, hb, ha'⟩ := exists_of_bind_ok (ho'.symm.trans ho)
  have hends : (unload host).Ends w := ends_iff.2 ⟨_, hu⟩
  have hl₁ := loaded_after_unload hends
  obtain ⟨hooks, home, hdoes, -, -⟩ := does_unload hh hl ((ends_unload_iff hl).1 hends)
  obtain ⟨own, hdoes', hnone, hheld⟩ := exists_does_loadPath hh hl₁ hb
  have hd : (load host (.text p.toString)).deeds w =
      (unload host).deeds w ++ (loadPath host p).deeds ((unload host).after w) := by
    rw [← deeds_bind (k := fun _ => loadPath host p) hu hdoes hdoes', deeds, deeds, ha]
  have halone := h.alone
  rw [hd] at halone
  obtain ⟨hfirst, hsecond⟩ :=
    Woven.alone_of_append_pair rfl rfl hdoes.leads.woven hdoes'.leads.woven halone
  have hheld' := hheld _ (show ((unload host).after w).session.holding.loaded = false from hl₁)
  have hholding := hdoes'.leads.holding.trans
    (hdoes'.leads.woven.replay_eq (hsecond.cons own) _)
  let v := (loadPath host p).after ((unload host).after w)
  have hv : (load host (.text p.toString)).after w = v := ha.trans ha'
  have hloaded : v.session.loaded = b := (congrArg Holding.loaded hholding).trans hheld'.1
  refine ⟨?_, ?_⟩
  · rw [hv, current, hloaded]
    cases b with
    | true =>
      have hpath : v.session.path = some p := (congrArg Holding.path hholding).trans (hheld'.2 rfl)
      rw [hpath]
      exact congrArg some (hp.resolve_eq _)
    | false => rfl
  · have hquiet : ∀ d : Deed, d.isQuiet → d.isLoad = false := fun d hd => by
      cases d <;> first | rfl | cases hd
    have hown : (Deed.load p :: own).filter Deed.isLoad = [.load p] := by
      rw [List.filter_cons_of_pos rfl, List.filter_eq_nil_iff.2 fun d hd => by simp [hnone d hd]]
    rw [hd, List.filter_append, hdoes.leads.woven.filter_eq (hfirst.cons _) hquiet,
      hdoes'.leads.woven.filter_eq (hsecond.cons own) hquiet, hown]
    simp [farewell, Deed.isLoad]

/-- A path that waits is worked off by one load if it is that of the script. -/
theorem applyPending_of_current (hh : host.Follows) {u : World} {pre post : List Path} {p : Path}
    (hq : u.pending = pre ++ p :: post) (hn : u.pending.Nodup) (hp : p.Resolved)
    (hc : u.current = some p) (h : Reloads host p (reaching u pre post)) {b : Bool}
    (ho : (load host (.text p.toString)).outcome (reaching u pre post) = .ok b) :
    (applyPending host).outcome u = .ok (if b then [p] else []) ∧
      ∃ l, (applyPending host).after u =
        { (load host (.text p.toString)).after (reaching u pre post) with
          pending := [], log := l } := by
  have hl : (reaching u pre post).session.loaded = true := by
    unfold current at hc
    by_contra hl
    exact absurd hc (by simp [show u.session.loaded = false by simpa [reaching] using hl])
  rw [hq] at hn
  obtain ⟨-, hrest, hapart⟩ := List.nodup_append.1 hn
  obtain ⟨ho', l, ha⟩ := reloadIfCurrent_of_eq (w := reaching u pre post) hc ho
  have hafter := (current_after_load hh hp hl h ho).1
  -- What is left is passed over: the script that is loaded now, if there is one, waited once.
  let v := (reloadIfCurrent host p).after (reaching u pre post)
  have hvp : v.pending = post := (congrArg pending ha).trans h.queue
  have hvc : ∀ q ∈ post, v.current ≠ some q := by
    intro q hq' hvq
    rw [congrArg current ha] at hvq
    replace hvq := hafter.symm.trans hvq
    cases b with
    | true => exact (List.nodup_cons.1 hrest).1 (Option.some.inj hvq ▸ hq')
    | false => cases hvq
  obtain ⟨hmo, hma⟩ := applyPendingWithin_of_passing (n := reloadLimit) []
    (w := v) (hvp.trans (List.append_nil _).symm) hvc
    (applyPendingWithin_of_nil _ rfl).1
  have hstep :=
    applyPendingWithin_of_cons (w := reaching u pre (p :: post)) (v := v) rfl ho' rfl hmo
  obtain ⟨hwo, hwa⟩ := applyPendingWithin_of_passing _ hq
    (fun q hq' hcq => hapart q hq' p (by simp) (Option.some.inj (hcq.symm.trans hc))) hstep.1
  have hcount : reloadLimit + u.pending.length = reloadLimit + post.length + 1 + pre.length := by
    rw [hq, List.length_append, List.length_cons]
    omega
  rw [applyPending, outcome_get_bind, after_get_bind]
  dsimp only
  rw [hcount]
  refine ⟨hwo, ?_⟩
  rw [hwa, hstep.2, hma, (applyPendingWithin_of_nil _ rfl).2, show v = _ from ha]
  exact ⟨_, rfl⟩

/-- Where no path that waits is that of the script, all are passed over. -/
theorem applyPending_of_none (host : Responder) {u : World}
    (hn : ∀ p ∈ u.pending, u.current ≠ some p) :
    (applyPending host).outcome u = .ok [] ∧
      (applyPending host).after u = reaching u u.pending [] := by
  obtain ⟨ho, ha⟩ := applyPendingWithin_of_passing (n := reloadLimit) []
    (w := u) (List.append_nil _).symm hn (applyPendingWithin_of_nil _ rfl).1
  exact ⟨ho, ha.trans (applyPendingWithin_of_nil _ rfl).2⟩

/-- Files that have changed are put in the queue, each path once, where it came first. When the
queue is worked off, in whatever session, it is empty in the end. The script that is loaded is loaded
again just when its path waits, by one load, and its path is given back if that succeeds; otherwise
nothing but the log changes. -/
theorem applyPending_of_queued (n : Nat) (texts : List String) {w : World} (hw : w.pending = [])
    (hc : w.cwd.Formed) :
    let host := respond n
    let queue := w.resolving texts
    ((askAll (n + 1) (texts.map .queue)).outcome w = .ok () ∧ ∃ l,
      (askAll (n + 1) (texts.map .queue)).after w = { w with pending := queue, log := l }) ∧
    queue.Nodup ∧
    ∀ u : World, u.pending = queue →
      ((∀ p ∈ queue, u.current ≠ some p) →
        (applyPending host).outcome u = .ok [] ∧
          (∃ l, (applyPending host).after u = { u with pending := [], log := l }) ∧
          (applyPending host).deeds u = []) ∧
      ∀ pre p post, queue = pre ++ p :: post → u.current = some p →
        let v := reaching u pre post
        Reloads host p v →
        ∃ b, (load host (.text p.toString)).outcome v = .ok b ∧
          (applyPending host).outcome u = .ok (if b then [p] else []) ∧
          (∃ l, (applyPending host).after u =
            { (load host (.text p.toString)).after v with pending := [], log := l }) ∧
          ((applyPending host).deeds u).filter Deed.isLoad = [.load p] := by
  intro host queue
  have hq : queue = w.queueing (texts.filter fun text => Askable text) := by
    rw [World.queueing, hw, foldl_enqueue]
    rfl
  have hnodup : queue.Nodup := by
    rw [hq, World.queueing, hw]
    exact nodup_foldl_enqueue List.nodup_nil _
  refine ⟨?_, hnodup, fun u hu => ⟨fun hn => ?_, ?_⟩⟩
  · rw [hq]
    exact queues_askAll n texts w
  · rw [← hu] at hn
    obtain ⟨ho, ha⟩ := applyPending_of_none host hn
    refine ⟨ho, ⟨_, ha⟩, ?_⟩
    rw [deeds, ha]
    exact List.drop_length
  · intro pre p post he hcur v h
    have hp : p.Resolved := by
      have hm : p ∈ queue := he ▸ List.mem_append_right _ List.mem_cons_self
      obtain ⟨text, -, rfl⟩ := List.mem_map.1 (List.mem_eraseDups.1 hm)
      exact Path.resolved_resolve hc (Path.formed_ofString text)
    obtain ⟨b, hb⟩ := ends_iff.1 h.ends
    have hl : v.session.loaded = true := by
      by_contra hl
      have hnone : u.current = none := if_neg hl
      cases hnone.symm.trans hcur
    obtain ⟨ho, l, ha⟩ := applyPending_of_current (follows_respond n) (hu.trans he)
      (hu ▸ hnodup) hp hcur h hb
    refine ⟨b, hb, ho, ⟨l, ha⟩, ?_⟩
    have hd : (applyPending host).deeds u = (load host (.text p.toString)).deeds v := by
      rw [deeds, ha, deeds]
      rfl
    rw [hd]
    exact (current_after_load (follows_respond n) hp hl h hb).2

/-- A host with two scripts, of which one is loaded. -/
def twoScripts : World :=
  (load (respond 4) (.text "s/a.lua")).after {
    files := ((default : Files.Node).put (.file (Text.encode "x = 1")) ["s", "a.lua"]).put
      (.file (Text.encode "y = 1")) ["b.lua"] }

/-- Four changes of two files are two paths, and one of them is that of the script. -/
theorem applyPending_of_two_files :
    (applyPending (respond 4)).outcome
      { twoScripts with pending := [⟨"/", ["b.lua"]⟩, ⟨"/", ["s", "a.lua"]⟩] } =
        .ok [⟨"/", ["s", "a.lua"]⟩] := by
  let texts := ["b.lua", "./s/../s/a.lua", "/b.lua", "s//a.lua"]
  let u : World := { twoScripts with pending := [⟨"/", ["b.lua"]⟩, ⟨"/", ["s", "a.lua"]⟩] }
  let v := reaching u [⟨"/", ["b.lua"]⟩] []
  have hq : World.resolving {} texts = [⟨"/", ["b.lua"]⟩, ⟨"/", ["s", "a.lua"]⟩] := by
    decide +kernel
  have hr : Reloads (respond 4) ⟨"/", ["s", "a.lua"]⟩ v :=
    ⟨by decide +kernel, by decide +kernel, by decide +kernel⟩
  obtain ⟨b, hb, ho, -⟩ := ((applyPending_of_queued 4 texts (w := {}) rfl
    ⟨by decide, nofun⟩).2.2 u hq.symm).2 [⟨"/", ["b.lua"]⟩] _ [] hq (by decide +kernel) hr
  have hload : (load (respond 4) (.text "/s/a.lua")).outcome v = .ok true := by decide +kernel
  obtain rfl : b = true := Except.ok.inj (hb.symm.trans hload)
  exact ho

end Op

end ScriptHost
