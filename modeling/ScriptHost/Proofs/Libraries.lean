import ScriptHost.Proofs.Basics
import ScriptHost.Script.Library.Natives

/-!
# Library functions are confined

A library function of the realm gives and raises nothing from outside, where what it is given is in
the realm and what it calls is confined (`Native.confined_run`). Three of them give another: `pairs`
and `ipairs` the step of a loop, and `gmatch` that of a walk over matches, which have to be in the
realm with them (`Realm.Closed`).
-/
namespace ScriptHost.Script

open Text (Bytes)
open Number (Binary64)
open Library Eval

variable {α : Type} {r : Realm} {P : α → Prop}

namespace Library.Invocation.Within

variable {c : Invocation} (hc : c.Within r)

include hc

/-! ### Formats -/

theorem directive (written : Bytes) (flags : String) (hasPrecision : Bool) :
    (directive c written flags hasPrecision).Confined r fun _ => True := by
  unfold Library.directive
  split
  · exact confined_pure trivial
  · exact hc.failAt _ _

theorem formatText (written : Bytes) (n : Nat) :
    (formatText c written n).Confined r fun _ => True := by
  refine (hc.shown (hc.arg n)).bind fun s _ => ?_
  refine confined_ite (fun _ => confined_pure trivial) fun _ => ?_
  refine confined_guard (hc.failArgWith n _) ?_
  refine (hc.directive _ _ _).bind fun d _ => ?_
  split <;> exact confined_pure trivial

theorem formatOne (written : Bytes) (n : Nat) :
    (formatOne c written n).Confined r fun _ => True := by
  have plain : ∀ b : Bytes, (Pure.pure b : Eval Bytes).Confined r fun _ => True := fun _ =>
    confined_pure trivial
  have whole : ∀ flags, Confined r (fun _ => True) (do
      let i ← c.int n
      return (← Library.directive c written flags true).int i) := fun _ =>
    (hc.int n).bind fun _ _ => (hc.directive _ _ _).bind fun _ _ => plain _
  unfold Library.formatOne
  dsimp only
  split
  · exact (hc.directive _ _ _).bind fun _ _ => (hc.int n).bind fun _ _ => plain _
  · exact whole _
  · exact whole _
  · exact whole _
  · exact whole _
  · exact whole _
  · exact whole _
  · exact (hc.directive _ _ _).bind fun _ _ => (hc.float n).bind fun _ _ => plain _
  · exact (hc.directive _ _ _).bind fun _ _ => (hc.float n).bind fun _ _ => plain _
  · exact (hc.float n).bind fun _ _ => (hc.directive _ _ _).bind fun _ _ => plain _
  · exact (hc.float n).bind fun _ _ => (hc.directive _ _ _).bind fun _ _ => plain _
  · exact (hc.float n).bind fun _ _ => (hc.directive _ _ _).bind fun _ _ => plain _
  · exact (hc.float n).bind fun _ _ => (hc.directive _ _ _).bind fun _ _ => plain _
  · exact (hc.float n).bind fun _ _ => (hc.directive _ _ _).bind fun _ _ => plain _
  · refine (hc.directive _ _ _).bind fun _ _ => ?_
    split <;> exact plain _
  · refine confined_guard (hc.refuse _) ?_
    split
    · exact plain _
    · exact hc.failArgWith n _
  · exact hc.formatText _ n
  · exact hc.failAt _ _

theorem writtenDirective (s : Bytes) : (writtenDirective c s).Confined r fun _ => True :=
  confined_guard (hc.refuse _) (confined_pure trivial)

theorem format : (format c).Confined r r.HasAll := by
  refine (hc.text 1).bind fun whole _ => Confined.bind (P := fun _ => True) ?_ fun _ _ =>
    confined_pure (Realm.hasAll_one trivial)
  refine confined_repeating (fun _ => True) (fun (s, n, acc) _ => ?_) trivial
  dsimp only
  split
  · exact confined_pure trivial
  · exact confined_pure trivial
  · refine confined_unless (hc.failArgWith n _) ?_
    refine (hc.writtenDirective _).bind fun _ _ => (hc.formatOne _ n).bind fun _ _ => ?_
    exact confined_pure trivial
  · exact confined_pure trivial

/-! ### Maths -/

theorem ofFloat (f : Float → Float) : (ofFloat c f).Confined r r.HasAll :=
  (hc.float 1).bind fun _ _ => confined_pure (Realm.hasAll_one trivial)

omit hc in
theorem has_wholeOrFloat (x : Binary64) : r.Has (wholeOrFloat x) := by
  unfold wholeOrFloat
  split <;> trivial

theorem rounded (f : Binary64 → Binary64) : (rounded c f).Confined r r.HasAll := by
  unfold Library.rounded
  split
  · exact confined_pure (Realm.hasAll_one trivial)
  · exact (hc.float 1).bind fun _ _ => confined_pure (Realm.hasAll_one (has_wholeOrFloat _))

theorem bestOf {better : Value → Value → Eval Bool}
    (hb : ∀ {v w}, r.Has v → r.Has w → (better v w).Confined r fun _ => True) :
    (bestOf c better).Confined r r.HasAll := by
  unfold Library.bestOf
  split
  · exact hc.failArgWith 1 _
  · rename_i first rest he
    obtain ⟨hf, hr⟩ := Realm.hasAll_cons.1 (he ▸ hc.args)
    refine Confined.bind (confined_foldlM (fun best v hv hbest => ?_) hf) fun _ hbest =>
      confined_pure (Realm.hasAll_one hbest)
    refine (hb (hr v hv) hbest).bind fun b _ => confined_pure ?_
    split
    · exact hr v hv
    · exact hbest

theorem modf : (modf c).Confined r r.HasAll := by
  unfold Library.modf
  split
  · exact confined_pure (Realm.hasAll_two trivial trivial)
  · exact (hc.float 1).bind fun _ _ => confined_pure (Realm.hasAll_two trivial trivial)

theorem fmod : (fmod c).Confined r r.HasAll := by
  unfold Library.fmod
  split
  · exact confined_guard (hc.failArgWith 2 _) (confined_pure (Realm.hasAll_one trivial))
  · exact (hc.float 1).bind fun _ _ => (hc.float 2).bind fun _ _ =>
      confined_pure (Realm.hasAll_one trivial)

theorem logarithm : (logarithm c).Confined r r.HasAll := by
  have number : ∀ x : Binary64, (Pure.pure [.float x] : Eval _).Confined r r.HasAll := fun _ =>
    confined_pure (Realm.hasAll_one trivial)
  refine (hc.float 1).bind fun x _ => confined_ite (fun _ => number _) fun _ => ?_
  refine (hc.float 2).bind fun base _ => confined_ite (fun _ => number _) fun _ => ?_
  exact confined_ite (fun _ => number _) fun _ => number _

omit hc in
theorem randomWord : (randomWord c).Confined r fun _ => True :=
  confined_heap.bind fun _ _ =>
    (confined_modifyHeap fun _ hw => hw.setRandomness _ _).bind fun _ _ => confined_pure trivial

omit hc in
theorem randomUpTo (word limit : UInt64) : (randomUpTo c word limit).Confined r fun _ => True := by
  refine confined_repeating (fun _ => True) (fun x _ => ?_) trivial
  refine confined_ite (fun _ => confined_pure trivial) fun _ => ?_
  exact randomWord.bind fun _ _ => confined_pure trivial

theorem random : (random c).Confined r r.HasAll := by
  refine randomWord.bind fun word _ => ?_
  have between : ∀ low high : Int64, Confined r r.HasAll (do
      if high < low then c.failArgWith 2 "interval is empty"
      let x ← Library.randomUpTo c word (high.toUInt64 - low.toUInt64)
      return [.int (x + low.toUInt64).toInt64]) := fun low high =>
    confined_guard (hc.failArgWith 2 _) <| (randomUpTo _ _).bind fun _ _ =>
      confined_pure (Realm.hasAll_one trivial)
  dsimp only
  split
  · exact confined_pure (Realm.hasAll_one trivial)
  · refine (hc.int 1).bind fun high _ => confined_ite (fun _ => ?_) fun _ => between 1 high
    exact confined_pure (Realm.hasAll_one trivial)
  · exact (hc.int 1).bind fun low _ => (hc.int 2).bind fun high _ => between low high
  · exact hc.refuse _

theorem randomSeed : (randomSeed c).Confined r r.HasAll := by
  have seeded : ∀ s : UInt64 × UInt64, Confined r r.HasAll (do
      Eval.modifyHeap (·.setRandomness c.site.home (.ofSeeds s.1 s.2))
      return [.int s.1.toInt64, .int s.2.toInt64]) := fun _ =>
    (confined_modifyHeap fun _ hw => hw.setRandomness _ _).bind fun _ _ =>
      confined_pure (Realm.hasAll_two trivial trivial)
  have any : ∀ {β} (x : β), (Pure.pure x : Eval β).Confined r fun _ => True := fun _ =>
    confined_pure trivial
  refine confined_ite (fun _ => ?_) fun _ => ?_
  · dsimp only
    split
    · exact (any _).bind fun _ _ => (hc.intOr 2 0).bind fun _ _ => (any _).bind fun s _ => seeded s
    · exact (hc.float 1).bind fun _ _ => (any _).bind fun _ _ => (hc.intOr 2 0).bind fun _ _ =>
        (any _).bind fun s _ => seeded s
  · exact randomWord.bind fun _ _ => randomWord.bind fun _ _ => (any _).bind fun s _ => seeded s

theorem runMath (f : MathFunction) : (runMath f c).Confined r r.HasAll := by
  have number : ∀ x : Binary64, (Pure.pure [.float x] : Eval _).Confined r r.HasAll := fun _ =>
    confined_pure (Realm.hasAll_one trivial)
  cases f with
  | abs =>
    dsimp only [Library.runMath]
    split
    · exact confined_pure (Realm.hasAll_one trivial)
    · exact (hc.float 1).bind fun _ _ => number _
  | ceil => exact hc.rounded _
  | floor => exact hc.rounded _
  | max => exact hc.bestOf fun hv hw => hc.less false hw hv
  | min => exact hc.bestOf fun hv hw => hc.less false hv hw
  | fmod => exact hc.fmod
  | modf => exact hc.modf
  | atan =>
    refine (hc.float 1).bind fun _ _ => confined_ite (fun _ => ?_) fun _ => ?_
    · exact (confined_pure (P := fun _ => True) trivial).bind fun _ _ => number _
    · exact (hc.float 2).bind fun _ _ => number _
  | log => exact hc.logarithm
  | deg => exact (hc.float 1).bind fun _ _ => number _
  | rad => exact (hc.float 1).bind fun _ _ => number _
  | tointeger =>
    dsimp only [Library.runMath]
    split
    · exact confined_pure (Realm.hasAll_one trivial)
    · exact (hc.any 1).bind fun _ _ => confined_pure (Realm.hasAll_one trivial)
  | type =>
    refine (hc.any 1).bind fun _ _ => ?_
    split <;> exact confined_pure (Realm.hasAll_one trivial)
  | ult =>
    exact (hc.int 1).bind fun _ _ => (hc.int 2).bind fun _ _ =>
      confined_pure (Realm.hasAll_one trivial)
  | frexp =>
    refine (hc.float 1).bind fun x _ => confined_ite (fun _ => ?_) fun _ => ?_
    · exact confined_pure (Realm.hasAll_two trivial trivial)
    · exact confined_pure (Realm.hasAll_two trivial trivial)
  | ldexp =>
    refine (hc.float 1).bind fun x _ => (hc.int 2).bind fun _ _ => ?_
    exact confined_ite (fun _ => number _) fun _ => number _
  | random => exact hc.random
  | randomseed => exact hc.randomSeed
  | sqrt | sin | cos | tan | asin | acos | exp => exact hc.ofFloat _

/-! ### Texts -/

theorem textRep : (textRep c).Confined r r.HasAll := by
  refine (hc.text 1).bind fun s _ => (hc.int 2).bind fun n _ => (hc.textOr 3 _).bind fun gap _ => ?_
  refine confined_ite (fun _ => confined_pure (Realm.hasAll_one trivial)) fun _ => ?_
  refine confined_guard (hc.refuse _) (confined_guard (confined_raise trivial) ?_)
  exact confined_pure (Realm.hasAll_one trivial)

theorem textByte : (textByte c).Confined r r.HasAll := by
  refine (hc.text 1).bind fun s _ => (hc.intOr 2 1).bind fun first _ => ?_
  refine (hc.intOr 3 first).bind fun last _ => confined_guard (hc.refuse _) (confined_pure ?_)
  exact List.forall_mem_map.2 fun _ _ => trivial

theorem textChar : (textChar c).Confined r r.HasAll := by
  refine Confined.bind (confined_mapM (P := fun _ => True) fun n _ => ?_) fun _ _ =>
    confined_pure (Realm.hasAll_one trivial)
  exact (hc.int _).bind fun _ _ => confined_guard (hc.failArgWith _ _) (confined_pure trivial)

/-- What a text has for an operator is called, if it has anything. -/
theorem callOperator (event : String) (f : Value) :
    r.Has f → Confined r r.HasAll (match f with
      | .nil => c.refuse
        s!"attempt to {event} a '{(c.arg 1).typeName}' with a '{(c.arg 2).typeName}'"
      | f => do return [← c.callMeta f [c.arg 1, c.arg 2]]) := by
  intro hf
  split
  · exact hc.refuse _
  · refine (hc.callMeta hf (Realm.hasAll_two (hc.arg 1) (hc.arg 2))).bind fun _ hv => ?_
    exact confined_pure (Realm.hasAll_one hv)

theorem textOperator {event : String} {run : Numeral → Numeral → Eval Value}
    (hrun : ∀ a b, (run a b).Confined r r.Has) :
    (textOperator c event run).Confined r r.HasAll := by
  unfold Library.textOperator
  split
  · exact (hrun _ _).bind fun _ hv => confined_pure (Realm.hasAll_one hv)
  · dsimp only
    split
    · exact (confined_pure trivial).bind (hc.callOperator event)
    · exact (hc.metamethod (hc.arg 2) _).bind (hc.callOperator event)

theorem textArith (op : ArithOp) : (textArith op c).Confined r r.HasAll :=
  hc.textOperator fun _ _ =>
    hc.arith op (Context.Within.has_ofNumeral _) (Context.Within.has_ofNumeral _)

theorem textNegate : (textNegate c).Confined r r.HasAll :=
  hc.textOperator fun _ _ => confined_pure (Context.Within.has_ofNumeral _)

/-! ### Searches -/

theorem ofPattern (x : Except PatternFault α) : (ofPattern c x).Confined r fun _ => True := by
  cases x with
  | ok a => exact confined_pure trivial
  | error f => exact hc.refuse _

theorem captureValue (text : Array UInt8) (x : Capture) :
    (captureValue c text x).Confined r r.Has := by
  unfold Library.captureValue
  split
  · exact hc.refuse _
  · exact confined_pure trivial
  · exact confined_pure trivial

theorem captureValues (text : Array UInt8) (start : Nat) (m : Matched) :
    (captureValues c text start m).Confined r r.HasAll :=
  confined_ite (fun _ => confined_pure (Realm.hasAll_one trivial)) fun _ =>
    confined_mapM fun x _ => hc.captureValue text x

theorem find (wantsPlace : Bool) : (find c wantsPlace).Confined r r.HasAll := by
  have nowhere : (Pure.pure [.nil] : Eval (List Value)).Confined r r.HasAll :=
    confined_pure (Realm.hasAll_one trivial)
  refine (hc.text 1).bind fun text _ => (hc.text 2).bind fun p _ => ?_
  refine (hc.intOr 3 1).bind fun _ _ => ?_
  refine confined_ite (fun _ => nowhere) fun _ => confined_ite (fun _ => ?_) fun _ => ?_
  · split
    · exact confined_pure (Realm.hasAll_two trivial trivial)
    · exact nowhere
  · refine (hc.ofPattern _).bind fun found _ => ?_
    split
    · exact nowhere
    · refine confined_ite (fun _ => ?_) fun _ => hc.captureValues _ _ _
      refine (confined_mapM fun x _ => hc.captureValue _ x).bind fun vs hvs => confined_pure ?_
      exact (Realm.hasAll_two (v := .int _) (w := .int _) trivial trivial).append hvs

theorem walk (hn : ∀ n, r.natives (.nextMatch n)) : (walk c).Confined r r.HasAll := by
  refine (hc.text 1).bind fun text _ => (hc.text 2).bind fun p _ => ?_
  refine (hc.intOr 3 1).bind fun _ _ => ?_
  refine (confined_newTable (within_ofItems _ _ ?_)).bind fun place _ => confined_pure ?_
  · intro v hv
    simp only [List.mem_toArray, List.mem_cons, List.not_mem_nil, or_false] at hv
    rcases hv with rfl | rfl | rfl | rfl <;> trivial
  · exact Realm.hasAll_one (hn place)

theorem walkStep (state : Nat) : (walkStep c state).Confined r r.HasAll := by
  have goesOn : ∀ n stop : Int64,
      (Eval.modifyHeap (·.rawSet state (.int n) (.int stop))).Confined r fun _ => True := fun _ _ =>
    confined_modifyHeap fun _ hw => hw.rawSet state trivial trivial
  refine confined_heap.bind fun h _ => ?_
  split
  · refine (hc.ofPattern _).bind fun found _ => ?_
    split
    · exact confined_pure Realm.hasAll_nil
    · exact (goesOn _ _).bind fun _ _ => (goesOn _ _).bind fun _ _ => hc.captureValues _ _ _
  · exact confined_pure Realm.hasAll_nil

theorem expand (text : Array UInt8) (start : Nat) (m : Matched) (written : Bytes) :
    (expand c text start m written).Confined r fun _ => True := by
  have done : ∀ s, (Pure.pure s : Eval ((Bytes × List Bytes) ⊕ Bytes)).Confined r
      (Sum.elim (fun _ => True) fun _ => True) := fun s => confined_pure (by cases s <;> trivial)
  refine confined_repeating (fun _ => True) (fun (s, acc) _ => ?_) trivial
  dsimp only
  split
  · exact done _
  · exact done _
  · exact done _
  · split
    · refine confined_ite (fun _ => Confined.bind (P := fun _ => True) ?_ fun _ _ => done _) fun _ =>
        hc.refuse _
      split
      · exact (hc.captureValue _ _).map fun _ _ => trivial
      · exact confined_ite (fun _ => confined_pure trivial) fun _ => hc.refuse _
    · exact hc.refuse _
  · exact done _

/-- Only a text replaces what was found, and nothing if the value is false. -/
theorem chosen (v : Value) : Confined r (fun _ => True) (do
    if !v.truthy then return none
    match plainText? v with
    | some b => return some b
    | none => c.refuse s!"invalid replacement value (a {v.typeName})") := by
  refine confined_ite (fun _ => confined_pure trivial) fun _ => ?_
  split
  · exact confined_pure trivial
  · exact hc.refuse _

theorem replacement (text : Array UInt8) (start : Nat) (m : Matched) :
    (replacement? c text start m).Confined r fun _ => True := by
  have third := hc.arg 3
  unfold Library.replacement?
  dsimp only
  split
  · rename_i t he
    rw [he] at third
    split
    · exact (hc.captureValue _ _).bind fun _ hk => (hc.index third hk).bind fun v _ => hc.chosen v
    · exact (confined_pure (P := r.Has) (a := .text _) trivial).bind fun _ hk =>
        (hc.index third hk).bind fun v _ => hc.chosen v
  · exact (hc.captureValues _ _ _).bind fun _ hvs =>
      (hc.call third hvs).bind fun vs _ => hc.chosen _
  · exact (hc.captureValues _ _ _).bind fun _ hvs =>
      (hc.call third hvs).bind fun vs _ => hc.chosen _
  · exact (hc.expand _ _ _ _).map fun _ _ => trivial

theorem replaceAt (text : Array UInt8) (p : Bytes) (s : Replacing) :
    (replaceAt? c text p s).Confined r fun _ => True := by
  refine (hc.ofPattern _).bind fun found _ => ?_
  split
  · exact (hc.replacement _ _ _).bind fun _ _ => confined_pure trivial
  · exact confined_pure trivial

theorem replace : (replace c).Confined r r.HasAll := by
  refine (hc.text 1).bind fun text _ => (hc.text 2).bind fun p _ => ?_
  refine (hc.intOr 4 _).bind fun most _ => ?_
  refine confined_unless (hc.failType 3 _) <| Confined.bind (P := fun _ => True) ?_ fun _ _ =>
    confined_pure (Realm.hasAll_two trivial trivial)
  refine confined_repeating (fun _ => True) (fun s _ => ?_) trivial
  refine confined_ite (fun _ => confined_pure trivial) fun _ => ?_
  refine (hc.replaceAt _ _ s).bind fun next _ => ?_
  split
  · exact confined_pure trivial
  · exact confined_pure (by split <;> trivial)

/-! ### Tables -/

theorem item {t : Value} (ht : r.Has t) (i : Int) : (item c t i).Confined r r.Has :=
  hc.index ht trivial

theorem setItem {t v : Value} (ht : r.Has t) (i : Int) (hv : r.Has v) :
    (setItem c t i v).Confined r fun _ => True :=
  hc.setIndex ht trivial hv

omit hc in
theorem forEach {step : Int → Eval Unit} (hstep : ∀ i, (step i).Confined r fun _ => True)
    (first : Int) (count : Nat) : (forEach step first count).Confined r fun _ => True := by
  refine confined_repeating (fun _ => True) (fun (i, left) _ => ?_) trivial
  cases left with
  | zero => exact confined_pure trivial
  | succ left => exact (hstep i).bind fun _ _ => confined_pure trivial

theorem checkTable (n : Nat) (events : List String) :
    (checkTable c n events).Confined r fun _ => True := by
  unfold Library.checkTable
  split
  · exact confined_pure trivial
  · exact confined_heap.bind fun _ _ =>
      confined_ite (fun _ => confined_pure trivial) fun _ => hc.failType n _

theorem lengthOf {v : Value} (hv : r.Has v) : (lengthOf c v).Confined r fun _ => True := by
  refine (hc.length hv).bind fun n _ => ?_
  split
  · exact confined_pure trivial
  · exact hc.refuse _

theorem rowLength (events : List String) : (rowLength c events).Confined r fun _ => True :=
  (hc.checkTable 1 _).bind fun _ _ => hc.lengthOf (hc.arg 1)

theorem tableConcat : (tableConcat c).Confined r r.HasAll := by
  refine (hc.rowLength _).bind fun length _ => (hc.textOr 2 _).bind fun separator _ => ?_
  refine (hc.intOr 3 1).bind fun first _ => (hc.intOr 4 _).bind fun last _ => ?_
  refine Confined.bind (P := fun _ => True) ?_ fun _ _ => confined_pure (Realm.hasAll_one trivial)
  refine confined_repeating (fun _ => True) (fun (i, acc) _ => ?_) trivial
  refine confined_ite (fun _ => confined_pure trivial) fun _ => ?_
  refine Confined.bind (P := fun _ => True) ?_ fun _ _ => confined_pure trivial
  refine (hc.item (hc.arg 1) i).bind fun v _ => ?_
  split
  · exact confined_pure trivial
  · exact hc.refuse _

theorem tableInsert : (tableInsert c).Confined r r.HasAll := by
  have first := hc.arg 1
  have done : (Pure.pure [] : Eval (List Value)).Confined r r.HasAll :=
    confined_pure Realm.hasAll_nil
  refine (hc.rowLength _).bind fun size _ => ?_
  dsimp only
  split
  · exact (hc.setItem first _ (hc.arg 2)).bind fun _ _ => done
  · refine (hc.int 2).bind fun place _ => confined_guard (hc.failArgWith 2 _) ?_
    refine (forEach (fun n => ?_) _ _).bind fun _ _ =>
      (hc.setItem first _ (hc.arg 3)).bind fun _ _ => done
    exact (hc.item first _).bind fun v hv => hc.setItem first _ hv
  · exact hc.refuse _

theorem tableRemove : (tableRemove c).Confined r r.HasAll := by
  have first := hc.arg 1
  refine (hc.rowLength _).bind fun size _ => (hc.intOr 2 _).bind fun place _ => ?_
  refine confined_guard (hc.failArgWith 2 _) ((hc.item first _).bind fun taken htaken => ?_)
  refine (forEach (fun i => ?_) _ _).bind fun _ _ =>
    (hc.setItem (v := .nil) first _ trivial).bind fun _ _ =>
      confined_pure (Realm.hasAll_one htaken)
  exact (hc.item first _).bind fun v hv => hc.setItem first _ hv

theorem tablePack : (tablePack c).Confined r r.HasAll := by
  refine (confined_newTable (within_ofItems _ _ ?_)).bind fun place hplace => ?_
  · exact fun v hv => hc.args v (List.mem_toArray.1 hv)
  · exact (confined_modifyHeap fun _ hw => hw.rawSet place Realm.has_text Realm.has_int).bind
      fun _ _ => confined_pure (Realm.hasAll_one hplace)

/-- The items between two places are looked up one after the other, unless there are too many. -/
theorem unpacked (first : Int64) (last : Int) : Confined r r.HasAll (do
    let count := (last - first.toInt + 1).toNat
    if 2 ^ 31 ≤ count || stackLimit < c.site.top + count then
      c.refuse "too many results to unpack"
    Eval.repeating (fun ((i, acc) : Int × List Value) => do
      if last < i then return .inr acc.reverse
      else return .inl (i + 1, (← Library.item c (c.arg 1) i) :: acc)) (first.toInt, [])) := by
  refine confined_guard (hc.refuse _) ?_
  refine confined_repeating (fun s => r.HasAll s.2) (fun s hacc => ?_) Realm.hasAll_nil
  obtain ⟨i, acc⟩ := s
  refine confined_ite (fun _ => confined_pure ?_) fun _ => ?_
  · exact fun v hv => hacc v (List.mem_reverse.1 hv)
  · exact (hc.item (hc.arg 1) i).bind fun v hv => confined_pure (.cons hv hacc)

theorem tableUnpack : (tableUnpack c).Confined r r.HasAll := by
  refine (hc.intOr 2 1).bind fun first _ => ?_
  refine confined_ite (fun _ => ?_) fun _ => ?_
  · exact (hc.lengthOf (hc.arg 1)).bind fun last _ => hc.unpacked first last
  · exact ((hc.int 3).map (Q := fun _ => True) fun _ _ => trivial).bind fun last _ =>
      hc.unpacked first last

theorem tableMove : (tableMove c).Confined r r.HasAll := by
  have source := hc.arg 1
  have moved : ∀ {copy : Int → Eval Unit} {dest : Value} (count : Int) (apart : Bool), r.Has dest →
      (∀ i, (copy i).Confined r fun _ => True) → Confined r r.HasAll (do
        if apart then Library.forEach copy 0 count.toNat
        else Library.forEach (fun n => copy (count - 1 - n)) 0 count.toNat
        return [dest]) := by
    intro copy dest count apart hd hcopy
    refine confined_ite (fun _ => ?_) fun _ => ?_
    · exact (forEach hcopy _ _).bind fun _ _ => confined_pure (Realm.hasAll_one hd)
    · exact (forEach (fun _ => hcopy _) _ _).bind fun _ _ => confined_pure (Realm.hasAll_one hd)
  have known : ∀ b : Bool, (Pure.pure b : Eval Bool).Confined r fun _ => True := fun _ =>
    confined_pure trivial
  refine (hc.int 2).bind fun first _ => (hc.int 3).bind fun last _ => ?_
  refine (hc.int 4).bind fun target _ => ?_
  refine (hc.checkTable 1 _).bind fun _ _ => (hc.checkTable _ _).bind fun _ _ => ?_
  have dest := hc.arg (if c.lacks 5 then 1 else 5)
  have move : ∀ apart, _ := fun apart =>
    moved (last.toInt - first.toInt + 1) apart dest fun i =>
      (hc.item source (first.toInt + i)).bind fun v hv => hc.setItem dest (target.toInt + i) hv
  refine confined_ite (fun _ => ?_) fun _ => confined_pure (Realm.hasAll_one dest)
  refine confined_guard (hc.failArgWith 3 _) (confined_guard (hc.failArgWith 4 _) ?_)
  refine confined_ite (fun _ => (known _).bind fun _ _ => move _) fun _ => ?_
  refine confined_ite (fun _ => (known _).bind fun _ _ => move _) fun _ => ?_
  exact (hc.equal source dest).bind fun _ _ => (known _).bind fun _ _ => move _

theorem tableCreate : (tableCreate c).Confined r r.HasAll := by
  refine (hc.int 1).bind fun row _ => (hc.intOr 2 0).bind fun rest _ => ?_
  refine confined_unless (hc.failArgWith 1 _) (confined_unless (hc.failArgWith 2 _) ?_)
  exact (confined_newTable (within_withRoom _ _ _)).bind fun _ hp =>
    confined_pure (Realm.hasAll_one hp)

/-! ### Sorting -/

theorem before {v w : Value} (hv : r.Has v) (hw : r.Has w) :
    (before c v w).Confined r fun _ => True := by
  refine confined_ite (fun _ => hc.less false hv hw) fun _ => ?_
  exact (hc.call (hc.arg 2) (Realm.hasAll_two hv hw)).bind fun _ _ => confined_pure trivial

theorem setBoth {v w : Value} (i j : Int) (hv : r.Has v) (hw : r.Has w) :
    (setBoth c i v j w).Confined r fun _ => True :=
  (hc.setItem (hc.arg 1) i hv).bind fun _ _ => hc.setItem (hc.arg 1) j hw

theorem scan {isBefore : Value → Eval Bool} (pastLimit : Int → Bool) (step start : Int)
    (hb : ∀ v, r.Has v → (isBefore v).Confined r fun _ => True) :
    (scan c isBefore pastLimit step start).Confined r fun s => r.Has s.2 := by
  refine confined_repeating (fun _ => True) (fun i _ => ?_) trivial
  refine (hc.item (hc.arg 1) i).bind fun v hv => (hb v hv).bind fun b _ => ?_
  refine confined_ite (fun _ => ?_) fun _ => confined_pure hv
  exact confined_guard (hc.refuse _) (confined_pure trivial)

theorem partition (low high : Int) {pivot : Value} (hp : r.Has pivot) :
    (partition c low high pivot).Confined r fun _ => True := by
  refine confined_repeating (fun _ => True) (fun (i, j) _ => ?_) trivial
  refine (hc.scan _ _ _ fun v hv => hc.before hv hp).bind fun (i, v) hv => ?_
  refine (hc.scan _ _ _ fun w hw => hc.before hp hw).bind fun (j, w) hw => ?_
  refine confined_ite (fun _ => ?_) fun _ => ?_
  · exact (hc.setBoth _ _ hv hp).bind fun _ _ => confined_pure trivial
  · exact (hc.setBoth _ _ hw hv).bind fun _ _ => confined_pure trivial

theorem sortEnds (low high : Int) : (sortEnds c low high).Confined r fun _ => True := by
  have first := hc.arg 1
  unfold Library.sortEnds
  refine (hc.item first low).bind fun a ha => (hc.item first high).bind fun b hb => ?_
  refine (hc.before hb ha).bind fun _ _ => confined_guard (hc.setBoth _ _ hb ha) ?_
  refine confined_ite (fun _ => confined_pure trivial) fun _ => ?_
  refine (hc.item first _).bind fun m hm => (hc.item first low).bind fun a ha => ?_
  refine (hc.before hm ha).bind fun _ _ => confined_ite (fun _ => ?_) fun _ => ?_
  · exact (hc.setBoth _ _ ha hm).bind fun _ _ => confined_pure trivial
  · refine (hc.item first high).bind fun b hb => (hc.before hb hm).bind fun _ _ => ?_
    exact confined_guard (hc.setBoth _ _ hb hm) (confined_pure trivial)

theorem sortRanges (ranges : List (Int × Int)) :
    (sortRanges c ranges).Confined r fun _ => True := by
  have first := hc.arg 1
  refine confined_repeating (fun _ => True) (fun ranges _ => ?_) trivial
  split
  · exact confined_pure trivial
  · refine confined_ite (fun _ => confined_pure trivial) fun _ => ?_
    refine (hc.sortEnds _ _).bind fun mid _ => ?_
    split
    · exact confined_pure trivial
    · refine (hc.item first _).bind fun pivot hp => (hc.item first _).bind fun other ho => ?_
      refine (hc.setBoth _ _ ho hp).bind fun _ _ => (hc.partition _ _ hp).bind fun _ _ => ?_
      exact confined_ite (fun _ => confined_pure trivial) fun _ => confined_pure trivial

theorem tableSort : (tableSort c).Confined r r.HasAll := by
  have done : (Pure.pure [] : Eval (List Value)).Confined r r.HasAll :=
    confined_pure Realm.hasAll_nil
  refine (hc.rowLength _).bind fun size _ => confined_ite (fun _ => ?_) fun _ => done
  refine confined_guard (hc.failArgWith 1 _) (confined_unless (hc.callable 2) ?_)
  exact (hc.sortRanges _).bind fun _ _ => done

theorem runTable (f : TableFunction) : (runTable f c).Confined r r.HasAll := by
  cases f with
  | concat => exact hc.tableConcat
  | create => exact hc.tableCreate
  | insert => exact hc.tableInsert
  | move => exact hc.tableMove
  | pack => exact hc.tablePack
  | remove => exact hc.tableRemove
  | sort => exact hc.tableSort
  | unpack => exact hc.tableUnpack

/-! ### All functions -/

theorem runText (f : TextFunction) (hn : f = .gmatch → ∀ n, r.natives (.nextMatch n)) :
    (runText f c).Confined r r.HasAll := by
  have changed : ∀ g : Bytes → Value, (∀ s, r.Has (g s)) →
      (do return [g (← c.text 1)]).Confined r r.HasAll := fun g hg =>
    (hc.text 1).bind fun s _ => confined_pure (Realm.hasAll_one (hg s))
  cases f with
  | byte => exact hc.textByte
  | char => exact hc.textChar
  | find => exact hc.find true
  | format => exact hc.format
  | gmatch => exact hc.walk (hn rfl)
  | gsub => exact hc.replace
  | len => exact changed (fun s => .int (Int64.ofNat s.length)) fun _ => trivial
  | lower => exact changed (fun s => .text (s.map lowerByte)) fun _ => trivial
  | «match» => exact hc.find false
  | rep => exact hc.textRep
  | reverse => exact changed (fun s => .text s.reverse) fun _ => trivial
  | sub =>
    exact (hc.text 1).bind fun _ _ => (hc.int 2).bind fun _ _ => (hc.intOr 3 _).bind fun _ _ =>
      confined_pure (Realm.hasAll_one trivial)
  | upper => exact changed (fun s => .text (s.map upperByte)) fun _ => trivial
  | dump => exact (hc.callable 1).bind fun _ _ => hc.refuse _
  | pack | packsize | unpack => exact hc.refuse _

theorem runCoroutine (f : CoroutineFunction) : (runCoroutine f c).Confined r r.HasAll := by
  cases f with
  | create =>
    refine (hc.callable 1).bind fun _ _ h hw => ⟨?_, hw.addThread (hc.arg 1)⟩
    exact Realm.hasAll_one (hw.newThread (Nat.le_refl _))
  | isyieldable => exact confined_pure (Realm.hasAll_one trivial)
  | _ => exact hc.refuse _

theorem runObject (f : ObjectFunction) : (runObject f c).Confined r r.HasAll := by
  have first := hc.arg 1
  unfold Library.runObject
  split
  · rename_i place he
    rw [he] at first
    refine (confined_ask hc.site first ?_).bind fun reply hreply => ?_
    · cases f with
      | call => exact hc.args.drop 1
      | index => exact Realm.hasAll_one (hc.arg 2)
      | assign => exact Realm.hasAll_two (hc.arg 2) (hc.arg 3)
      | «show» => exact Realm.hasAll_nil
    · cases reply with
      | ok vs => exact confined_pure hreply
      | error e => exact hc.raise hreply
  · exact hc.failArgWith 1 _

end Library.Invocation.Within

/-- With a function that gives another, the realm has that other. -/
structure Realm.Closed (r : Realm) : Prop where
  pairs : r.natives .pairs → r.natives .next
  ipairs : r.natives .ipairs → r.natives .ipairsStep
  walk : r.natives (.text .gmatch) → ∀ n, r.natives (.nextMatch n)

/-- A library function of the realm leads nowhere outside of it. -/
theorem Native.confined_run {f : Native} {c : Invocation} (hr : r.Closed) (hf : r.natives f)
    (hc : c.Within r) : (f.run c).Confined r r.HasAll := by
  cases f with
  | assert => exact hc.assert
  | collectgarbage => exact hc.collectgarbage
  | error => exact hc.error
  | getmetatable => exact hc.getmetatable
  | ipairs => exact hc.ipairs (hr.ipairs hf)
  | load => exact hc.load
  | next => exact hc.next
  | pairs => exact hc.pairs (hr.pairs hf)
  | pcall => exact hc.pcall
  | print => exact hc.print
  | rawequal => exact hc.rawequal
  | rawget => exact hc.rawget
  | rawlen => exact hc.rawlen
  | rawset => exact hc.rawset
  | select => exact hc.select
  | setmetatable => exact hc.setmetatable
  | tonumber => exact hc.tonumber
  | tostring => exact hc.tostring
  | type => exact hc.type
  | xpcall => exact hc.xpcall
  | ipairsStep => exact hc.ipairsStep
  | text f => exact hc.runText f fun he => hr.walk (he ▸ hf)
  | table f => exact hc.runTable f
  | math f => exact hc.runMath f
  | coroutine f => exact hc.runCoroutine f
  | textArith op => exact hc.textArith op
  | textNegate => exact hc.textNegate
  | nextMatch state => exact hc.walkStep state
  | object f => exact hc.runObject f
  | outside name => exact hc.refuse _

end ScriptHost.Script
