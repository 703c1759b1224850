import ScriptHost.Application.Respond
import ScriptHost.Proofs.Subscriptions

/-!
# Signals as ordered sets

Handlers that are called may connect and disconnect themselves and each other, emit the very signal
they are called for, or fail. Whatever they do, a signal answers as a set does that keeps its members
in the order they came (`Stir.answer`): its handlers are those that have been connected and not
disconnected since, and an emission calls those that are there when it begins (`mapM_respond`).
-/
namespace ScriptHost

/-- What becomes of a signal: handlers come and go and are called. In between, handlers make
notes. -/
inductive Stir where
  | connect (h : Handler)
  | disconnect (h : Handler)
  /-- A handler is called from an emission that may lead to so many requests in a row. -/
  | call (level : Nat) (h : Handler) (args : List Datum)
  | note (sheet : String) (pictures : List Picture)

/-- What a plain value looks like, in whatever world. -/
def Datum.plain? : Datum → Option Picture
  | .none => some Picture.none
  | .bool b => some (.bool b)
  | .int i => some (.int i)
  | .float x => some (.float x)
  | .text s => some (.text s)
  | _ => Option.none

namespace Stir

/-- The handler that comes or goes. -/
def mover : Stir → Option Handler
  | connect h | disconnect h => some h
  | _ => none

/-- The call that an emission on a level makes. -/
def callOn (level : Nat) : Stir → Option (Handler × List Datum)
  | call k h args => if k = level then some (h, args) else none
  | _ => none

def noted : Stir → Option (String × List Picture)
  | note sheet pictures => some (sheet, pictures)
  | _ => none

/-- A handler comes or goes. -/
def moves (h : Handler) (es : List Stir) : Bool :=
  es.any (·.mover = some h)

/-- The handlers that have been connected and not been disconnected since, in the order in which
they were last connected. -/
def present : List Stir → Handlers
  | [] => []
  | connect h :: es => if moves h es then present es else h :: present es
  | _ :: es => present es

section
variable {h : Handler} {es : List Stir}

theorem moves_append (h : Handler) (es fs : List Stir) :
    moves h (es ++ fs) = (moves h es || moves h fs) :=
  List.any_append

theorem moves_of_mem_present (hm : h ∈ present es) : moves h es := by
  induction es with
  | nil => cases hm
  | cons e es ih =>
    rw [moves, List.any_cons, Bool.or_eq_true]
    cases e with
    | connect g =>
      rw [present] at hm
      split at hm
      · exact .inr (ih hm)
      · rcases List.mem_cons.1 hm with rfl | hm
        · exact .inl (by simp [mover])
        · exact .inr (ih hm)
    | disconnect g | call k g args | note sheet pictures => exact .inr (ih hm)

theorem nodup_present (es : List Stir) : (present es).Nodup := by
  induction es with
  | nil => exact List.nodup_nil
  | cons e es ih =>
    cases e with
    | connect g =>
      rw [present]
      split
      · exact ih
      · next hn => exact List.nodup_cons.2 ⟨fun hm => hn (moves_of_mem_present hm), ih⟩
    | disconnect g | call k g args | note sheet pictures => exact ih

/-- Those stay who do not come or go again. -/
theorem present_append (es fs : List Stir) :
    present (es ++ fs) = (present es).filter (fun h => !moves h fs) ++ present fs := by
  induction es with
  | nil => rfl
  | cons e es ih =>
    cases e with
    | connect g =>
      rw [List.cons_append, present, present, moves_append, ih]
      cases moves g es <;> cases hg : moves g fs <;> simp [hg]
    | disconnect g | call k g args | note sheet pictures => exact ih

theorem present_connect (hn : h ∉ present es) :
    present (es ++ [connect h]) = present es ++ [h] := by
  rw [present_append, List.filter_eq_self.2]
  · rfl
  · intro g hg
    simp [moves, mover, (ne_of_mem_of_not_mem hg hn).symm]

theorem present_disconnect (es : List Stir) (h : Handler) :
    present (es ++ [disconnect h]) = (present es).erase h := by
  have hnone : present [disconnect h] = [] := rfl
  rw [present_append, (nodup_present es).erase_eq_filter, hnone, List.append_nil]
  refine List.filter_congr fun g _ => ?_
  by_cases hg : g = h
  · simp [moves, mover, hg]
  · simp [moves, mover, hg, Ne.symm hg]

theorem present_of_mover {e : Stir} (he : e.mover = none) : present (es ++ [e]) = present es := by
  rw [present_append, List.filter_eq_self.2 fun h _ => by simp [moves, he]]
  cases e <;> first | exact List.append_nil _ | cases he

/-- Handlers that are connected one after the other are present in that order. -/
theorem present_map_connect {hs : Handlers} (hd : hs.Nodup) : present (hs.map connect) = hs := by
  induction hs with
  | nil => rfl
  | cons g hs ih =>
    obtain ⟨hg, hd⟩ := List.nodup_cons.1 hd
    rw [List.map_cons, present, ih hd, if_neg]
    simpa [moves, mover] using hg

end

/-! ### Ordered sets of handlers -/

section
variable (signal : String) (body : List Datum → Handler → Program Datum)

/-- How a set of handlers in the order they came answers, if each does something when it is called.
Coming is refused to those that are present, and going to those that are not. An emission calls those
that are present when it begins, each once in their order, whatever they do, and tells how many they
were. -/
def answer : Nat → Request → StateM (List Stir) Reply
  | 0, _ => return .error .tooDeep
  | _ + 1, .connect _ p => do
    if .object p ∈ present (← get) then return .error (.handlerPresent signal)
    modify (· ++ [connect (.object p)])
    return .ok .none
  | _ + 1, .disconnect _ p => do
    if .object p ∉ present (← get) then return .error (.handlerAbsent signal)
    modify (· ++ [disconnect (.object p)])
    return .ok .none
  | n + 1, .emit _ args => do
    let hs := present (← get)
    hs.forM fun h => do
      modify (· ++ [call n h args])
      let _ ← Dialogue.run (answer n) (ExceptT.run (body args h))
    return .ok (.int hs.length)
  | _ + 1, .handlerCount _ => return .ok (.int (present (← get)).length)
  | _ + 1, .note sheet items => do
    modify (· ++ [note sheet (items.filterMap Datum.plain?)])
    return .ok .none
  | _ + 1, _ => return .ok .none

theorem answer_connect (n : Nat) (s : String) (p : Nat) (es : List Stir) :
    (answer signal body (n + 1) (.connect s p)).run es =
      if .object p ∈ present es then (.error (.handlerPresent signal), es)
      else (.ok .none, es ++ [connect (.object p)]) := by
  change (ite _ _ _ : StateM (List Stir) Reply).run es = _
  split <;> rfl

theorem answer_disconnect (n : Nat) (s : String) (p : Nat) (es : List Stir) :
    (answer signal body (n + 1) (.disconnect s p)).run es =
      if .object p ∉ present es then (.error (.handlerAbsent signal), es)
      else (.ok .none, es ++ [disconnect (.object p)]) := by
  change (ite _ _ _ : StateM (List Stir) Reply).run es = _
  split <;> rfl

/-! ### Whom an emission calls -/

variable {α β : Type}

theorem run_bind (x : StateM (List Stir) α) (f : α → StateM (List Stir) β) (es : List Stir) :
    (x >>= f).run es = (f (x.run es).1).run (x.run es).2 := rfl

/-- A computation goes on from what has become of a signal, and calls nobody on a level or above. -/
def CallsBelow (level : Nat) (x : StateM (List Stir) α) : Prop :=
  ∀ es, ∃ fs, (x.run es).2 = es ++ fs ∧ ∀ k, level ≤ k → fs.filterMap (callOn k) = []

theorem CallsBelow.bind {level : Nat} {x : StateM (List Stir) α} {f : α → StateM (List Stir) β}
    (hx : CallsBelow level x) (hf : ∀ a, CallsBelow level (f a)) : CallsBelow level (x >>= f) := by
  intro es
  obtain ⟨fs, hfs, hnone⟩ := hx es
  obtain ⟨gs, hgs, hnone'⟩ := hf (x.run es).1 (x.run es).2
  refine ⟨fs ++ gs, ?_, fun k hk => ?_⟩
  · rw [run_bind, hgs, hfs, List.append_assoc]
  · rw [List.filterMap_append, hnone k hk, hnone' k hk, List.append_nil]

theorem callsBelow_pure (level : Nat) (a : α) : CallsBelow level (pure a) := fun es =>
  ⟨[], (List.append_nil es).symm, fun _ _ => rfl⟩

theorem callsBelow_get {level : Nat} {f : List Stir → StateM (List Stir) α}
    (hf : ∀ es, CallsBelow level (f es)) : CallsBelow level (get >>= f) := fun es => hf es es

theorem callsBelow_add (level : Nat) {e : Stir} (he : ∀ k, callOn k e = none) (a : α) :
    CallsBelow level (do modify (· ++ [e]); return a) := fun es =>
  ⟨[e], rfl, fun k _ => by simp [he]⟩

theorem callsBelow_run {level : Nat} {f : Request → StateM (List Stir) Reply}
    (hf : ∀ q, CallsBelow level (f q)) (d : Dialogue Request Reply α) :
    CallsBelow level (d.run f) := by
  induction d with
  | done a => exact callsBelow_pure level a
  | ask q k ih => exact (hf q).bind ih

theorem calls_forM {n : Nat} (hn : ∀ q, CallsBelow n (answer signal body n q))
    (args : List Datum) (hs : Handlers) (es : List Stir) :
    let x : StateM (List Stir) PUnit := hs.forM fun h => do
      modify (· ++ [call n h args])
      let _ ← Dialogue.run (answer signal body n) (ExceptT.run (body args h))
    ∃ fs, (x.run es).2 = es ++ fs ∧ fs.filterMap (callOn n) = hs.map (·, args) ∧
      ∀ k, n < k → fs.filterMap (callOn k) = [] := by
  induction hs generalizing es with
  | nil => exact ⟨[], (List.append_nil es).symm, rfl, fun _ _ => rfl⟩
  | cons h hs ih =>
    obtain ⟨fs, hfs, hnone⟩ :=
      callsBelow_run hn (ExceptT.run (body args h)) (es ++ [call n h args])
    obtain ⟨gs, hgs, hcalls, hnone'⟩ := ih (es ++ [call n h args] ++ fs)
    refine ⟨call n h args :: (fs ++ gs), ?_, ?_, fun k hk => ?_⟩
    · rw [← hfs] at hgs
      exact hgs.trans (by rw [hfs]; simp)
    · have hcall : callOn n (call n h args) = some (h, args) := if_pos rfl
      rw [List.filterMap_cons_some hcall, List.filterMap_append, hnone n (Nat.le_refl n), hcalls]
      rfl
    · have hcall : callOn k (call n h args) = none := if_neg (Nat.ne_of_lt hk)
      rw [List.filterMap_cons_none hcall, List.filterMap_append, hnone k (Nat.le_of_lt hk),
        hnone' k hk]
      rfl

/-- Requests lead to calls on lower levels only. -/
theorem callsBelow_answer (n : Nat) (q : Request) : CallsBelow n (answer signal body n q) := by
  induction n generalizing q with
  | zero => exact callsBelow_pure _ _
  | succ n ih =>
    cases q with
    | connect s p =>
      refine callsBelow_get fun es => ?_
      split
      · exact callsBelow_pure _ _
      · exact callsBelow_add _ (fun _ => rfl) _
    | disconnect s p =>
      refine callsBelow_get fun es => ?_
      split
      · exact callsBelow_pure _ _
      · exact callsBelow_add _ (fun _ => rfl) _
    | note sheet items => exact callsBelow_add _ (fun _ => rfl) _
    | handlerCount s => exact callsBelow_get fun es => callsBelow_pure _ _
    | emit s args =>
      refine callsBelow_get fun es => CallsBelow.bind (fun fs => ?_) fun _ => callsBelow_pure _ _
      obtain ⟨gs, hgs, -, hcalls⟩ := calls_forM signal body ih args (present es) fs
      exact ⟨gs, hgs, hcalls⟩
    | _ => exact callsBelow_pure _ _

/-- An emission calls those that are present when it begins, each once in their order, with its
arguments, and tells how many they were. -/
theorem answer_emit (n : Nat) (s : String) (args : List Datum) (es : List Stir) :
    let x := (answer signal body (n + 1) (.emit s args)).run es
    x.1 = .ok (.int (present es).length) ∧
      ∃ fs, x.2 = es ++ fs ∧ fs.filterMap (callOn n) = (present es).map (·, args) := by
  obtain ⟨fs, hfs, hcalls, -⟩ :=
    calls_forM signal body (callsBelow_answer signal body n) args (present es) es
  exact ⟨rfl, fs, hfs, hcalls⟩

end

end Stir

/-! ### Signals -/

/-- What a handler does when it is called. What cannot be called does nothing. -/
def World.body (w : World) (args : List Datum) : Handler → Program Datum
  | .object p =>
    match w.objectAt p with
    | .callable f => f.run args
    | .entity cls _ =>
      match (w.classInfo cls).call with
      | some run => run p args
      | none => return .none
    | .cls cls =>
      match (w.classInfo cls).construct with
      | some make => make args
      | none => return .none
    | _ => return .none
  | .event e =>
    match (w.events[e]?).map EventDescriptor.source with
    | some (.signal _ callback deliver) => (fun _ => .none) <$> deliver callback args
    | _ => return .none

/-- All that a dialogue may ask is of a kind. -/
def Dialogue.Asks {Q A α : Type} (P : Q → Prop) : Dialogue Q A α → Prop
  | .done _ => True
  | .ask q k => P q ∧ ∀ a, (k a).Asks P

/-- A request is for one signal and its members, or to note plain values. -/
def Request.Concerns (signal : String) (member : Handler → Prop) : Request → Prop
  | .connect s p => s = signal ∧ member (.object p)
  | .disconnect s _ | .emit s _ | .handlerCount s => s = signal
  | .note _ items => ∀ d ∈ items, d.plain?.isSome
  | _ => False

/-- Handlers that ask for nothing but what concerns a signal and themselves. -/
def World.Company (w : World) (signal : String) (member : Handler → Prop) : Prop :=
  ∀ h, member h → ∀ args,
    (ExceptT.run (w.body args h)).Asks (Request.Concerns signal member)

namespace Op

variable {α β : Type} {base w : World} {signal : String} {member : Handler → Prop}

/-- A world shows what has become of a signal since it was another, and nobody has changed. -/
structure Shows (base : World) (signal : String) (member : Handler → Prop) (w : World)
    (es : List Stir) : Prop where
  handlers : w.signals.find? signal = some (Stir.present es)
  members : ∀ h ∈ Stir.present es, member h
  objects : w.objects = base.objects
  classes : w.classes = base.classes
  events : w.events = base.events
  notes : w.notes = base.notes ++ (es.filterMap Stir.noted).toArray

/-- An operation ends in what comes out of a set of handlers, and leaves a world that shows what has
become of it. -/
def Matches (base : World) (signal : String) (member : Handler → Prop) (m : Op α)
    (x : StateM (List Stir) α) : Prop :=
  ∀ w es, Shows base signal member w es →
    m.outcome w = .ok (x.run es).1 ∧ Shows base signal member (m.after w) (x.run es).2

theorem matches_pure (a : α) : Matches base signal member (pure a) (pure a) :=
  fun _ _ h => ⟨rfl, h⟩

theorem Matches.bind {m : Op α} {x : StateM (List Stir) α} {k : α → Op β}
    {f : α → StateM (List Stir) β} (hm : Matches base signal member m x)
    (hk : ∀ a, Matches base signal member (k a) (f a)) :
    Matches base signal member (m >>= k) (x >>= f) := by
  intro w es h
  obtain ⟨ho, h'⟩ := hm w es h
  rw [outcome_bind_of_ok ho, after_bind_of_ok ho]
  exact hk _ _ _ h'

theorem matches_run {host : Responder} {f : Request → StateM (List Stir) Reply}
    {P : Request → Prop} (hf : ∀ q, P q → Matches base signal member (attempt (host q)) (f q))
    {d : Dialogue Request Reply α} (hd : d.Asks P) :
    Matches base signal member (d.run fun q => attempt (host q)) (d.run f) := by
  induction d with
  | done a => exact matches_pure a
  | ask q k ih => exact (hf q hd.1).bind fun r => ih r (hd.2 r)

theorem matches_mapM {A : Type} {f : A → Op β} {g : A → StateM (List Stir) β} {l : List A}
    (h : ∀ a ∈ l, Matches base signal member (f a) (g a)) :
    Matches base signal member (l.mapM f) (l.mapM g) := by
  induction l with
  | nil => exact matches_pure []
  | cons a l ih =>
    rw [List.forall_mem_cons] at h
    rw [List.mapM_cons, List.mapM_cons]
    exact h.1.bind fun b => (ih h.2).bind fun bs => matches_pure (b :: bs)

/-! #### What shows -/

section
variable {es : List Stir} (h : Shows base signal member w es)
include h

/-- A handler comes or goes, and those that are there then are set. -/
theorem Shows.moved {e : Stir} (he : e.noted = none) {hs : Handlers}
    (hp : Stir.present (es ++ [e]) = hs) (hm : ∀ g ∈ hs, member g) :
    Shows base signal member { w with signals := w.signals.put signal hs } (es ++ [e]) where
  handlers := by rw [Roster.find?_put, if_pos rfl, hp]
  members := hp ▸ hm
  objects := h.objects
  classes := h.classes
  events := h.events
  notes := by rw [List.filterMap_append, List.filterMap_cons_none he]; simpa using h.notes

/-- Nobody comes or goes. -/
theorem Shows.stayed {e : Stir} (he : e.mover = none) (log : Array LogEntry) :
    Shows base signal member
      { w with notes := w.notes ++ e.noted.toList.toArray, log := log } (es ++ [e]) where
  handlers := (Stir.present_of_mover he).symm ▸ h.handlers
  members := (Stir.present_of_mover he).symm ▸ h.members
  objects := h.objects
  classes := h.classes
  events := h.events
  notes := by
    rw [List.filterMap_append, h.notes]
    cases hn : e.noted <;> simp [hn]

theorem Shows.logged (log : Array LogEntry) :
    Shows base signal member { w with log := log } es :=
  ⟨h.handlers, h.members, h.objects, h.classes, h.events, h.notes⟩

end

/-! #### Requests -/

theorem after_perform (host : Responder) (p : Program α) (w : World) :
    (perform host p).after w =
      (Dialogue.run (fun q => attempt (host q)) (ExceptT.run p)).after w := by
  unfold perform
  rw [after_bind]
  cases (Dialogue.run (fun q => attempt (host q)) (ExceptT.run p)).outcome w with
  | ok r => exact after_ofExcept r _
  | error f => rfl

/-- What becomes of the value of foreign code makes no difference to the world. -/
theorem after_perform_map (host : Responder) (f : α → β) (p : Program α) (w : World) :
    (perform host (f <$> p)).after w = (perform host p).after w := by
  have hrun : ExceptT.run (f <$> p) = Dialogue.bind (ExceptT.run p) fun r => .done (f <$> r) :=
    congrArg (Dialogue.bind (ExceptT.run p)) (funext fun r => by cases r <;> rfl)
  rw [after_perform, after_perform, hrun, Dialogue.run_bind, after_bind]
  cases (Dialogue.run (fun q => attempt (host q)) (ExceptT.run p)).outcome w <;> rfl

/-- To call a handler is to do what it does. -/
theorem after_callHandler (host : Responder) (args : List Datum) (h : Handler) (w : World) :
    (callHandler host args h).after w = (perform host (w.body args h)).after w := by
  cases h with
  | object p =>
    rw [callHandler, after_discard, callObject, after_get_bind, World.body]
    cases hw : w.objectAt p with
    | entity cls attributes =>
      dsimp only
      cases (w.classInfo cls).call <;> rfl
    | cls cls =>
      dsimp only
      cases (w.classInfo cls).construct <;> rfl
    | _ => rfl
  | event e =>
    rw [callHandler, after_get_bind, World.body]
    cases hs : (w.events[e]?).map EventDescriptor.source with
    | none => rfl
    | some source =>
      cases source with
      | signal signal callback deliver => exact (after_perform_map host _ _ w).symm
      | «foreign» begin_ end_ => rfl

section
variable (body : List Datum → Handler → Program Datum) (n : Nat) (host : Responder)

theorem matches_connect {p : Nat} (hp : member (.object p)) :
    Matches base signal member (attempt (answerRequest host (.connect signal p)))
      (Stir.answer signal body (n + 1) (.connect signal p)) := by
  intro w es h
  rw [Stir.answer_connect, outcome_attempt, after_attempt, answerRequest]
  by_cases hm : .object p ∈ Stir.present es
  · obtain ⟨ho, ha⟩ := connect_of_mem h.handlers hm
    rw [if_pos hm, outcome_bind_of_error ho, after_bind_of_error ho, ha]
    exact ⟨rfl, h⟩
  · obtain ⟨ho, ha⟩ := connect_of_not_mem h.handlers hm
    rw [if_neg hm, outcome_bind_of_ok ho, after_bind_of_ok ho, ha]
    refine ⟨rfl, h.moved rfl (Stir.present_connect hm) fun g hg => ?_⟩
    rcases List.mem_append.1 hg with hg | hg
    · exact h.members g hg
    · exact List.mem_singleton.1 hg ▸ hp

theorem matches_disconnect (p : Nat) :
    Matches base signal member (attempt (answerRequest host (.disconnect signal p)))
      (Stir.answer signal body (n + 1) (.disconnect signal p)) := by
  intro w es h
  rw [Stir.answer_disconnect, outcome_attempt, after_attempt, answerRequest]
  by_cases hm : .object p ∈ Stir.present es
  · obtain ⟨ho, ha⟩ := disconnect_of_mem h.handlers hm
    rw [if_neg (not_not_intro hm), outcome_bind_of_ok ho, after_bind_of_ok ho, ha]
    exact ⟨rfl, h.moved rfl (Stir.present_disconnect es _) fun g hg =>
      h.members g (List.mem_of_mem_erase hg)⟩
  · obtain ⟨ho, ha⟩ := disconnect_of_not_mem h.handlers hm
    rw [if_pos hm, outcome_bind_of_error ho, after_bind_of_error ho, ha]
    exact ⟨rfl, h⟩

theorem matches_handlerCount :
    Matches base signal member (attempt (answerRequest host (.handlerCount signal)))
      (Stir.answer signal body (n + 1) (.handlerCount signal)) := by
  intro w es h
  obtain ⟨ho, ha⟩ := handlers_of_find? h.handlers
  rw [outcome_attempt, after_attempt, answerRequest, outcome_bind_of_ok ho, after_bind_of_ok ho, ha]
  exact ⟨rfl, h⟩

theorem mapM_look_of_plain (w : World) {items : List Datum} (hi : ∀ d ∈ items, d.plain?.isSome) :
    items.mapM w.look = .ok (items.filterMap Datum.plain?) := by
  induction items with
  | nil => rfl
  | cons d items ih =>
    rw [List.forall_mem_cons] at hi
    obtain ⟨x, hx⟩ := Option.isSome_iff_exists.1 hi.1
    have hlook : w.look d = .ok x := by
      cases d <;> cases hx <;> rfl
    rw [List.mapM_cons, hlook, List.filterMap_cons_some hx, ih hi.2]
    rfl

theorem matches_note {sheet : String} {items : List Datum}
    (hi : ∀ d ∈ items, d.plain?.isSome) :
    Matches base signal member (attempt (answerRequest host (.note sheet items)))
      (Stir.answer signal body (n + 1) (.note sheet items)) := by
  intro w es h
  have ho : (note sheet items).outcome w = .ok () ∧ (note sheet items).after w =
      { w with notes := w.notes.push (sheet, items.filterMap Datum.plain?) } := by
    unfold note
    rw [outcome_get_bind, after_get_bind, mapM_look_of_plain w hi]
    exact ⟨rfl, rfl⟩
  rw [outcome_attempt, after_attempt, answerRequest, outcome_bind_of_ok ho.1,
    after_bind_of_ok ho.1, ho.2]
  exact ⟨rfl, h.stayed (e := .note sheet (items.filterMap Datum.plain?)) rfl w.log⟩

end

theorem Shows.body_eq {es : List Stir} (h : Shows base signal member w es) :
    w.body = base.body := by
  funext args g
  cases g with
  | object p =>
    simp only [World.body, World.objectAt, World.classInfo, h.objects, h.classes]
  | event e => simp only [World.body, h.events]

/-- An emission does what a set of handlers does, if that answers as they are answered. -/
theorem matches_callHandlers {n : Nat} (hc : base.Company signal member)
    (hn : ∀ q, q.Concerns signal member → Matches base signal member
      (attempt (respond n q)) (Stir.answer signal base.body n q)) (args : List Datum)
    {hs : Handlers} (hm : ∀ h ∈ hs, member h) :
    Matches base signal member (callHandlers (respond n) signal args hs)
      (hs.forM fun h => do
        modify (· ++ [.call n h args])
        let _ ← Dialogue.run (Stir.answer signal base.body n) (ExceptT.run (base.body args h))) := by
  induction hs with
  | nil => exact matches_pure _
  | cons g hs ih =>
    rw [List.forall_mem_cons] at hm
    refine Matches.bind (fun w es h => ?_) fun _ => ih hm.2
    have hcalled : Shows base signal member w (es ++ [.call n g args]) := by
      simpa [Stir.noted] using h.stayed (e := .call n g args) rfl w.log
    obtain ⟨-, hdone⟩ := matches_run hn (hc g hm.1 args) w _ hcalled
    have ha := (after_callHandler (respond n) args g w).trans (after_perform _ _ w)
    rw [h.body_eq] at ha
    rw [← ha] at hdone
    rw [outcome_attempt_bind, after_attempt_bind]
    cases (callHandler (respond n) args g).outcome w with
    | ok _ => exact ⟨rfl, hdone⟩
    | error f => exact ⟨rfl, hdone.logged _⟩

theorem matches_emit {n : Nat} (hc : base.Company signal member)
    (hn : ∀ q, q.Concerns signal member → Matches base signal member
      (attempt (respond n q)) (Stir.answer signal base.body n q)) (args : List Datum) :
    Matches base signal member (attempt (answerRequest (respond n) (.emit signal args)))
      (Stir.answer signal base.body (n + 1) (.emit signal args)) := by
  intro w es h
  obtain ⟨ho, ha⟩ := handlers_of_find? h.handlers
  obtain ⟨ho', h'⟩ := matches_callHandlers hc hn args h.members w es h
  have he : (emit (respond n) signal args).outcome w = .ok (Stir.present es).length ∧
      (emit (respond n) signal args).after w =
        (callHandlers (respond n) signal args (Stir.present es)).after w := by
    rw [emit, outcome_bind_of_ok ho, after_bind_of_ok ho, ha, outcome_bind_of_ok ho',
      after_bind_of_ok ho']
    exact ⟨rfl, rfl⟩
  rw [outcome_attempt, after_attempt, answerRequest, outcome_bind_of_ok he.1,
    after_bind_of_ok he.1, he.2]
  exact ⟨rfl, h'⟩

/-- Step: a request is answered as a set of handlers answers it. -/
theorem matches_respond (hc : base.Company signal member) (n : Nat) {q : Request}
    (hq : q.Concerns signal member) : Matches base signal member
      (attempt (respond n q)) (Stir.answer signal base.body n q) := by
  induction n generalizing q with
  | zero => exact fun w es h => ⟨rfl, h⟩
  | succ n ih =>
    cases q with
    | connect s p =>
      obtain ⟨rfl, hp⟩ := hq
      exact matches_connect base.body n (respond n) hp
    | disconnect s p =>
      obtain rfl := hq
      exact matches_disconnect base.body n (respond n) p
    | handlerCount s =>
      obtain rfl := hq
      exact matches_handlerCount base.body n (respond n)
    | note sheet items => exact matches_note base.body n (respond n) hq
    | emit s args =>
      obtain rfl := hq
      exact matches_emit hc (fun _ => ih) args
    | _ => exact hq.elim

/-- **A signal is an ordered set.** Whatever handlers do to a signal they are called for, and however
they fail, it answers any sequence of requests as the set of those that come and go: the handlers are
those that have been connected and not disconnected since, in the order they were last connected,
none twice. Connecting fails just for those that are there, disconnecting just for those that are
not, and nothing changes then. An emission does not fail: it calls those that are there when it
begins, each once in their order with its arguments, whatever becomes of them, and tells how many
they were. The notes that handlers make tell that they are called. -/
theorem mapM_respond_of_company (n : Nat) (qs : List Request) {hs : Handlers}
    (here : w.signals.find? signal = some hs) (nodup : hs.Nodup) (members : ∀ h ∈ hs, member h)
    (company : w.Company signal member) (asked : ∀ q ∈ qs, q.Concerns signal member) :
    let m := qs.mapM fun q => attempt (respond n q)
    let x := (qs.mapM (Stir.answer signal w.body n)).run (hs.map .connect)
    (m.outcome w = .ok x.1 ∧
      (m.after w).signals.find? signal = some (Stir.present x.2) ∧
      (m.after w).notes = w.notes ++ (x.2.filterMap Stir.noted).toArray) ∧
    ∀ es, (Stir.present es).Nodup ∧ ∀ k s,
      (∀ p, (Stir.answer signal w.body (k + 1) (.connect s p)).run es =
        if .object p ∈ Stir.present es then (.error (.handlerPresent signal), es)
        else (.ok .none, es ++ [.connect (.object p)])) ∧
      (∀ p, (Stir.answer signal w.body (k + 1) (.disconnect s p)).run es =
        if .object p ∉ Stir.present es then (.error (.handlerAbsent signal), es)
        else (.ok .none, es ++ [.disconnect (.object p)])) ∧
      ∀ args, ∃ fs, (Stir.answer signal w.body (k + 1) (.emit s args)).run es =
          (.ok (.int (Stir.present es).length), es ++ fs) ∧
        fs.filterMap (Stir.callOn k) = (Stir.present es).map (·, args) := by
  have hstart : (hs.map Stir.connect).filterMap Stir.noted = [] := by
    simp [List.filterMap_map, Stir.noted]
  have hpresent := Stir.present_map_connect nodup
  have hw : Shows w signal member w (hs.map .connect) :=
    ⟨hpresent.symm ▸ here, hpresent.symm ▸ members, rfl, rfl, rfl, by rw [hstart]; simp⟩
  obtain ⟨ho, hv⟩ :=
    matches_mapM (fun q hq => matches_respond company n (asked q hq)) w _ hw
  refine ⟨⟨ho, hv.handlers, hv.notes⟩, fun es => ⟨Stir.nodup_present es, fun k s => ⟨fun p => ?_,
    fun p => ?_, fun args => ?_⟩⟩⟩
  · exact Stir.answer_connect signal w.body k s p es
  · exact Stir.answer_disconnect signal w.body k s p es
  · obtain ⟨hr, fs, hfs, hcalls⟩ := Stir.answer_emit signal w.body k s args es
    exact ⟨fs, Prod.ext hr hfs, hcalls⟩

/-! ### Two handlers -/

/-- A function that makes a note and some requests before it ends. -/
def busy (sheet : String) (qs : List Request) (last : Program Datum) : Callable where
  type := "function"
  shown := "<function>"
  run _ := do
    Program.order (.note sheet [])
    qs.forM Program.order
    last

theorem asks_order {P : Request → Prop} {q : Request} {p : Program α} (hq : P q)
    (hp : (ExceptT.run p).Asks P) : (ExceptT.run (Program.order q >>= fun _ => p)).Asks P :=
  ⟨hq, fun r => by cases r <;> [trivial; exact hp]⟩

theorem asks_forM {P : Request → Prop} {qs : List Request} {p : Program α}
    (hq : ∀ q ∈ qs, P q) (hp : (ExceptT.run p).Asks P) :
    (ExceptT.run (qs.forM Program.order >>= fun _ => p)).Asks P := by
  induction qs with
  | nil => exact hp
  | cons q qs ih =>
    rw [List.forall_mem_cons] at hq
    exact ⟨hq.1, fun r => by cases r <;> [trivial; exact ih hq.2]⟩

/-- Two functions for a signal: the first gives way to the second, and that to the first, after an
emission of its own, and fails. -/
def quarrel : World where
  objects := #[.absent,
    .callable (busy "first" [.disconnect "s" 1, .connect "s" 2] (return .none)),
    .callable (busy "second" [.disconnect "s" 2, .emit "s" [], .connect "s" 1]
      (Program.fail (.raised "ValueError" "enough")))]
  signals := ⟨[("s", [])]⟩

theorem company_quarrel :
    quarrel.Company "s" fun h => h = .object 1 ∨ h = .object 2 := by
  rintro _ (rfl | rfl) args
  · refine asks_order (by simp [Request.Concerns]) (asks_forM ?_ trivial)
    simp [Request.Concerns]
  · refine asks_order (by simp [Request.Concerns]) (asks_forM ?_ trivial)
    simp [Request.Concerns]

/-- Each is called once, and the first is refused in the end as it is there again. -/
theorem mapM_respond_of_quarrel :
    let qs : List Request := [.connect "s" 1, .emit "s" [], .emit "s" [], .connect "s" 1]
    let m := qs.mapM fun q => attempt (respond 3 q)
    m.outcome quarrel =
        .ok [.ok .none, .ok (.int 1), .ok (.int 1), .error (.handlerPresent "s")] ∧
      (m.after quarrel).signals.find? "s" = some [.object 1] ∧
      (m.after quarrel).notes = #[("first", []), ("second", [])] := by
  intro qs m
  have here : quarrel.signals.find? "s" = some [] := rfl
  obtain ⟨h, -⟩ := mapM_respond_of_company 3 qs here List.nodup_nil (by simp) company_quarrel
    (by simp [qs, Request.Concerns])
  exact h

end Op

end ScriptHost
