import ScriptHost.Proofs.Renewal
import ScriptHost.Proofs.Steadiness

/-!
# Who can listen

A script begins to listen to an event that can be subscribed to just when nobody listens to it already
(`listenTo_iff`), whoever that is. So what a load lets its script listen to hangs on all that was done
before it: where everything has its turn, nothing is listened to between loads, and where it has not,
what somebody listens to while nothing is loaded is denied to the next script (`listens_anew`).
-/
namespace ScriptHost

open Files (Path)

namespace Op

open World

/-- An event is known under a name, and can be subscribed to. -/
def CanSubscribe (host : Responder) (name : String) (w : World) : Prop :=
  ∃ event, w.eventBooks.known.find? name = some event ∧ (subscribe host event).Ends w

section

variable {host : Responder} {w : World} {name : String}

theorem ends_listen_iff : (listen host name).Ends w ↔
    CanSubscribe host name w ∧ name ∉ w.eventBooks.active.names := by
  rw [← Roster.contains_iff, Bool.not_eq_true]
  cases hk : w.eventBooks.known.find? name with
  | none =>
    refine iff_of_false (not_ends_of_error (listen_of_unknown hk host).1) fun ⟨⟨_, h, _⟩, _⟩ => ?_
    exact nomatch hk.symm.trans h
  | some event =>
    unfold CanSubscribe
    simp only [hk, Option.some.injEq, exists_eq_left']
    cases hc : w.eventBooks.active.contains name with
    | true => exact iff_of_false (not_ends_of_error (listen_of_active hk hc host).1) nofun
    | false =>
      rw [and_iff_left rfl]
      cases hs : (subscribe host event).outcome w with
      | error f =>
        exact iff_of_false (not_ends_of_error (listen_of_error hk hc hs).1) (not_ends_of_error hs)
      | ok _ => exact iff_of_true (ends_iff.2 ⟨_, (listen_of_ok hk hc hs).1⟩) (ends_iff.2 ⟨_, hs⟩)

/-- A script begins to listen to what can be subscribed to unless somebody listens to it. -/
theorem listenTo_iff : (listenTo host [.text name]).outcome w = .ok true ↔
    CanSubscribe host name w ∧ name ∉ w.eventBooks.active.names := by
  have refused : ∀ f level v,
      (do report host f level; return false : Op Bool).outcome v ≠ .ok true := by
    intro f level v h
    obtain ⟨_, _, h, _⟩ := exists_of_bind_ok h
    cases h
  have hname : w.shown (.text name) = name := rfl
  rw [← ends_listen_iff, Ends]
  unfold listenTo
  simp only [outcome_get_bind, List.headD_cons, hname, outcome_attempt_bind]
  cases (listen host name).outcome w with
  | ok _ => exact iff_of_true rfl rfl
  | error f =>
    refine iff_of_false (fun h => ?_) Bool.false_ne_true
    dsimp only at h
    split at h
    · exact refused _ _ _ h
    · exact refused _ _ _ h
    · split at h
      · exact refused _ _ _ h
      · cases h

end

end Op

namespace World

/-- What scripts listen to is what the deeds since a world have come to. -/
def Heard (base w : World) : Prop :=
  ∃ ds, w.history.toList = base.history.toList ++ ds ∧
    w.eventBooks.active.names = ScriptHost.listening base.eventBooks.active.names ds

variable {base w v : World}

theorem Heard.refl (w : World) : Heard w w :=
  ⟨[], by simp, rfl⟩

theorem Heard.push (h : Heard base w) {d : Deed} (hv : v.history = w.history.push d)
    (ha : v.eventBooks.active.names = listeningStep w.eventBooks.active.names d) : Heard base v := by
  obtain ⟨ds, hds, hn⟩ := h
  refine ⟨ds ++ [d], by simp [hv, hds], ?_⟩
  rw [ha, hn, listening_append, listening_cons, listening_nil]

theorem lifeInvariant_heard (base : World) : LifeInvariant (Heard base) where
  apart h hv := by
    rw [Heard, hv.history, hv.books]
    exact h
  log _ _ h := h
  session _ h := h
  record {w d} hd h := h.push rfl (by cases d <;> first | rfl | cases hd)

theorem free_heard (base : World) : FreeBond (Only (Heard base)) where
  toLifeBond := (lifeInvariant_heard base).lifeBond
  clock := by
    rintro w _ f ⟨rfl, h⟩
    exact ⟨rfl, h⟩
  queue := by
    rintro w _ f ⟨rfl, h⟩
    exact ⟨rfl, h⟩
  twins := twins_only
  signals := by
    rintro w _ signal hs hs' - ⟨rfl, h⟩
    exact ⟨rfl, h⟩
  traffic := by
    rintro w _ d hd ⟨rfl, h⟩
    exact ⟨rfl, h.push rfl (by cases d <;> first | rfl | cases hd)⟩
  forget := by
    rintro w _ ⟨rfl, h⟩
    exact ⟨rfl, h.push (d := .forget) rfl rfl⟩
  discovered := by
    rintro w _ f ⟨rfl, h⟩
    exact ⟨rfl, h⟩
  welcome := by
    rintro w _ d - ⟨rfl, h⟩
    exact ⟨rfl, h⟩
  listen := by
    rintro w _ name event ⟨rfl, h⟩
    refine ⟨rfl, h.push (d := .listen name) rfl ?_⟩
    refine (Roster.names_put _ _ _).trans ?_
    simp only [Roster.contains_iff]
    rfl

/-- A script begins to listen to what can be subscribed to just when nobody has begun to since a world,
nor listened to it there already, or else all has been forgotten since. -/
def Admits (base w : World) : Prop :=
  ∃ ds, w.history.toList = base.history.toList ++ ds ∧ ∀ host name,
    (Op.listenTo host [.text name]).outcome w = .ok true ↔
      Op.CanSubscribe host name w ∧ ¬ Stands (· == .forget) (.listen name) ds ∧
        (name ∈ base.eventBooks.active.names → .forget ∈ ds)

theorem Heard.admits (h : Heard base w) : base.Admits w := by
  obtain ⟨ds, hds, hn⟩ := h
  refine ⟨ds, hds, fun host name => ?_⟩
  rw [Op.listenTo_iff, hn, mem_listening_iff]
  tauto

end World

namespace Op

open World

variable {α : Type} {P Q : World → Prop} {w : World}

/-! ### Wherever anything is asked -/

/-- How a host answers, but whoever asks anything in a world that rings is given an answer by
others. -/
def alarmed (rings : World → Bool) (alarm : Responder) : Nat → Responder
  | 0, q => do if rings (← get) then alarm q else throw .tooDeep
  | n + 1, q => do
    if rings (← get) then alarm q else answerRequest (alarmed rings alarm n) q

/-- Something holds wherever foreign code asks anything in an operation: others may answer where it
does not, and the operation does the same. -/
def Throughout (P : World → Prop) (n : Nat) (m : Responder → Op α) (w : World) : Prop :=
  ∀ rings alarm, (∀ v, P v → rings v = false) → AgreeAt (m (alarmed rings alarm n)) (m (respond n)) w

theorem Throughout.imp {n : Nat} {m : Responder → Op α} (h : Throughout P n m w)
    (hPQ : ∀ v, P v → Q v) : Throughout Q n m w :=
  fun rings alarm hr => h rings alarm fun v hv => hr v (hPQ v hv)

theorem alike_alarmed (F : FreeBond (Only P)) {rings : World → Bool}
    (hr : ∀ v, P v → rings v = false) (alarm : Responder) (n : Nat) :
    (alarmed rings alarm n).Alike (Only P) (respond n) := by
  induction n with
  | zero =>
    rintro q w _ ⟨rfl, hw⟩
    unfold alarmed
    rw [outcome_get_bind, after_get_bind, hr w hw]
    exact ⟨rfl, rfl, hw⟩
  | succ n ih =>
    rintro q w _ ⟨rfl, hw⟩
    unfold alarmed
    rw [outcome_get_bind, after_get_bind, hr w hw]
    exact alike_loose_answerRequest F.toLooseBond F.toRestless F.listen ih
      (alike_discover F.toOpenBond ih) q w w ⟨rfl, hw⟩

/-- What holds whatever is done holds throughout a load. -/
theorem throughout_load (F : FreeBond (Only P)) (hw : P w) (n : Nat) (path : Datum) :
    Throughout P n (load · path) w := by
  intro rings alarm hr
  have hh := alike_alarmed F hr alarm n
  have minds : Minds (Only P) (alarmed rings alarm n) (respond n) :=
    ⟨hh, alike_discover F.toOpenBond hh, alike_loose_unsubscribeAll F.toLooseBond hh⟩
  obtain ⟨ho, ha, -⟩ := alike_load F.toLifeBond minds path w w ⟨rfl, hw⟩
  exact ⟨ho, ha⟩

/-- **Who can listen.** Whatever a host asks for, one thing after another: it listens to what it has
begun to listen to and has not forgotten since. In a load from there on, wherever foreign code asks
anything, a script begins to listen to what can be subscribed to just when neither the load nor the
host before it listens to it by then. So where everything has had its turn and nothing is loaded, no
event is connected, and the load finds nothing listened to that it has not begun itself. -/
theorem listens_anew (n : Nat) (qs : List Request) (hw : w.Unused) :
    let u := (askAll n qs).after w
    (∀ name, name ∈ u.eventBooks.active.names ↔
        Stands (· == .forget) (.listen name) u.history.toList) ∧
      (∀ k s, Throughout u.Admits k (load · (.text s)) u) ∧
      (InTurn u.history.toList → u.session.loaded = false →
        u.eventBooks.active = {} ∧ ∀ event, ¬ u.Connected event) := by
  intro u
  refine ⟨fun name => ?_, fun k s => ?_, not_connected_askAll n qs hw.toFresh hw.books hw.silent⟩
  · obtain ⟨ds, hds, hn⟩ : Heard w u :=
      keeps_askAll (alike_free_respond (free_heard w) n) qs (.refl w)
    have hfirst : w.history.toList = [] := by rw [hw.history]
    rw [hn, hds, hfirst, List.nil_append, mem_listening_iff, hw.books]
    simp
  · exact (throughout_load (free_heard u) (.refl u) k _).imp fun _ => Heard.admits

/-- A script that listens to an event and keeps whether it may. -/
def eager : World where
  files := (default : Files.Node).put (.file (Text.encode "x = ListenTo('t')")) ["a.lua"]
  signals := ⟨[("s", [])]⟩
  catalog :=
    { events := ⟨[("t", pure ⟨"t", .signal "s" "T" fun _ _ => pure ()⟩)]⟩ }

theorem unused_eager : eager.Unused :=
  ⟨⟨rfl, rfl⟩, rfl, rfl, by simp [eager]⟩

/-- It is loaded and unloaded. -/
def comes : List Request :=
  [.load (.text "a.lua"), .unload]

/-- Loaded once more, it may listen again. -/
theorem listens_anew_of_comes :
    let u := (askAll 4 comes).after eager
    let v := (load (respond 4) (.text "a.lua")).after u
    u.eventBooks.known.names = ["t"] ∧ u.eventBooks.active = {} ∧ ¬ u.Connected 0 ∧
      Throughout u.Admits 4 (load · (.text "a.lua")) u ∧
      v.session.environment = some 1 ∧ (getGlobal (respond 4) 1 "x").outcome v = .ok (.bool true) := by
  have h : InTurn ((askAll 4 comes).after eager).history.toList ∧
      ((askAll 4 comes).after eager).session.loaded = false ∧
      ((askAll 4 comes).after eager).eventBooks.known.names = ["t"] ∧
      ((load (respond 4) (.text "a.lua")).after
        ((askAll 4 comes).after eager)).session.environment = some 1 ∧
      (getGlobal (respond 4) 1 "x").outcome ((load (respond 4) (.text "a.lua")).after
        ((askAll 4 comes).after eager)) = .ok (.bool true) := by decide +kernel
  obtain ⟨hturn, hl, hknown, hhome, hx⟩ := h
  obtain ⟨-, hadmits, hrest⟩ := listens_anew 4 comes unused_eager
  obtain ⟨hactive, hconnected⟩ := hrest hturn hl
  exact ⟨hknown, hactive, hconnected 0, hadmits 4 "a.lua", hhome, hx⟩

/-- The host makes the event known and listens to it. -/
def foreruns : List Request :=
  [.discover, .listenTo [.text "t"]]

/-- If the host listens while nothing is loaded, the event stays connected, and the script that is
loaded next may not listen to it although it is the first to ask. -/
theorem not_listens_of_foreruns :
    let u := (askAll 4 foreruns).after eager
    let v := (load (respond 4) (.text "a.lua")).after u
    u.session.loaded = false ∧ u.eventBooks.active.names = ["t"] ∧ u.Connected 0 ∧
      (load (respond 4) (.text "a.lua")).outcome u = .ok true ∧
      (∀ d ∈ (load (respond 4) (.text "a.lua")).deeds u, d.isQuiet = false) ∧
      v.session.environment = some 0 ∧
      (getGlobal (respond 4) 0 "x").outcome v = .ok (.bool false) := by
  intro u v
  have h : u.session.loaded = false ∧ u.eventBooks.active.names = ["t"] ∧
      u.signals.find? "s" = some [.event 0] ∧
      (load (respond 4) (.text "a.lua")).outcome u = .ok true ∧
      (∀ d ∈ (load (respond 4) (.text "a.lua")).deeds u, d.isQuiet = false) ∧
      v.session.environment = some 0 ∧
      (getGlobal (respond 4) 0 "x").outcome v = .ok (.bool false) := by decide +kernel
  obtain ⟨hl, hactive, hsignal, hload, hdeeds, hhome, hx⟩ := h
  exact ⟨hl, hactive, ⟨"s", _, hsignal, List.mem_singleton_self _⟩, hload, hdeeds, hhome, hx⟩

end Op

end ScriptHost
