import ScriptHost.Proofs.Realm
import ScriptHost.Script.Operators

/-!
# Confinement

A piece of a script is confined to a realm (`Eval.Confined`) if, from every heap within the realm,
it leaves one, gives and raises nothing from outside, and shows the host nothing from outside, as
long as the host answers in kind. Pieces that are put together of confined ones are confined, and so
are all operators, where what they call is.
-/
namespace ScriptHost.Script

open Text (Bytes)
open Number (Binary64)

variable {α β : Type} {r : Realm} {P : α → Prop} {Q : β → Prop}

/-! ### Questions and answers -/

/-- A site of the environment, with a handler in the realm. -/
structure Site.Within (r : Realm) (s : Site) : Prop where
  home : s.home = r.home
  handler : ∀ {g}, s.handler = some g → r.Has g

/-- The values that are shown with a wish. -/
def Wish.values : Wish → List Value
  | .call args => args
  | .index key => [key]
  | .assign key value => [key, value]
  | .show => []

structure Question.Within (r : Realm) (q : Question) : Prop where
  heap : q.heap.Within r
  site : q.site.Within r
  target : r.foreigns q.target
  wish : r.HasAll q.wish.values

structure Answer.Within (r : Realm) (a : Answer) : Prop where
  heap : a.heap.Within r
  value : ∀ {vs}, a.reply = .ok vs → r.HasAll vs
  raised : ∀ {e}, a.reply = .error e → r.Has e

/-- An end within a realm, with a result of which something holds. -/
def Outcome.Within (r : Realm) (P : α → Prop) : Outcome α → Prop
  | .value a h => P a ∧ h.Within r
  | .raised e closing h => (r.Has e ∧ r.HasAll closing) ∧ h.Within r
  | .endless h => h.Within r

/-- A dialogue that stays within a realm as long as its answers do. -/
def Stays (r : Realm) (P : α → Prop) : Dialogue Question Answer (Outcome α) → Prop
  | .done o => o.Within r P
  | .ask q k => q.Within r ∧ ∀ a : Answer, a.Within r → Stays r P (k a)

theorem Stays.bind {d : Dialogue Question Answer (Outcome α)}
    {k : Outcome α → Dialogue Question Answer (Outcome β)} (hd : Stays r P d)
    (hk : ∀ o, o.Within r P → Stays r Q (k o)) : Stays r Q (d.bind k) := by
  induction d with
  | done o => exact hk o hd
  | ask q next ih => exact ⟨hd.1, fun a ha => ih a (hd.2 a ha)⟩

namespace Eval

/-- A piece of a script leads nowhere outside of a realm, and something holds of its results. -/
def Confined (r : Realm) (P : α → Prop) (m : Eval α) : Prop :=
  ∀ h, h.Within r → Stays r P (m h)

variable {m : Eval α} {a : α}

theorem confined_pure (ha : P a) : Confined r P (Pure.pure a : Eval α) :=
  fun _ hw => ⟨ha, hw⟩

theorem Confined.bind {f : α → Eval β} (hm : m.Confined r P)
    (hf : ∀ a, P a → (f a).Confined r Q) : (m >>= f).Confined r Q := by
  intro h hw
  refine (hm h hw).bind fun o ho => ?_
  cases o with
  | value a h => exact hf a ho.1 h ho.2
  | raised e closing h => exact ho
  | endless h => exact ho

theorem confined_ite {b : Prop} [Decidable b] {n : Eval α} (hm : b → m.Confined r P)
    (hn : ¬b → n.Confined r P) : (if b then m else n).Confined r P := by
  split
  · exact hm ‹_›
  · exact hn ‹_›

/-- A piece that may fail at once. -/
theorem confined_guard {b : Prop} [Decidable b] {fail : Eval PUnit}
    (hf : fail.Confined r fun _ => True) (hm : m.Confined r P) :
    (if b then fail >>= fun _ => m else m).Confined r P :=
  confined_ite (fun _ => hf.bind fun _ _ => hm) fun _ => hm

theorem confined_unless {b : Prop} [Decidable b] {fail : Eval PUnit}
    (hf : fail.Confined r fun _ => True) (hm : m.Confined r P) :
    (if b then m else fail >>= fun _ => m).Confined r P :=
  confined_ite (fun _ => hm) fun _ => hf.bind fun _ _ => hm

theorem Confined.map {f : α → β} (hm : m.Confined r P) (hf : ∀ a, P a → Q (f a)) :
    (f <$> m).Confined r Q :=
  hm.bind fun a ha => confined_pure (hf a ha)

theorem confined_raise {e : Value} (he : r.Has e) : (raise e : Eval α).Confined r P :=
  fun _ hw => ⟨⟨he, Realm.hasAll_nil⟩, hw⟩

theorem confined_heap : heap.Confined r (Heap.Within r) :=
  fun _ hw => ⟨hw, hw⟩

theorem confined_look {f : Heap → α} (hf : ∀ h, h.Within r → P (f h)) : (look f).Confined r P :=
  fun h hw => ⟨hf h hw, hw⟩

theorem confined_modifyHeap {f : Heap → Heap} (hf : ∀ h, h.Within r → (f h).Within r) :
    (modifyHeap f).Confined r fun _ => True :=
  fun h hw => ⟨trivial, hf h hw⟩

theorem Confined.attempt (hm : m.Confined r P) : (attempt m).Confined r fun
    | .ok a => P a
    | .error (e, closing) => r.Has e ∧ r.HasAll closing := by
  intro h hw
  refine (hm h hw).bind fun o ho => ?_
  cases o with
  | value a h => exact ho
  | raised e closing h => exact ho
  | endless h => exact ho

theorem Confined.leaving {closing : Unit → List Value} (hm : m.Confined r P)
    (hc : r.HasAll (closing ())) : (leaving closing m).Confined r P := by
  intro h hw
  refine (hm h hw).bind fun o ho => ?_
  cases o with
  | value a h => exact ho
  | raised e inner h => exact ⟨⟨ho.1.1, ho.1.2.append hc⟩, ho.2⟩
  | endless h => exact ho

theorem confined_ask {site : Site} {target : Nat} {wish : Wish} (hs : site.Within r)
    (ht : r.foreigns target) (hv : r.HasAll wish.values) : (ask site target wish).Confined r fun
    | .ok vs => r.HasAll vs
    | .error e => r.Has e := by
  intro h hw
  refine ⟨⟨hw, hs, ht, hv⟩, fun a ha => ⟨?_, ha.heap⟩⟩
  cases hreply : a.reply with
  | ok vs => exact ha.value hreply
  | error e => exact ha.raised hreply

theorem confined_newTable {t : Table} (ht : t.Within r) : (newTable t).Confined r r.tables :=
  fun _ hw => ⟨hw.newTable (Nat.le_refl _), hw.addTable ht⟩

theorem confined_measure (place : Nat) : (measure place).Confined r fun _ => True :=
  fun _ hw => ⟨trivial, hw.measure place⟩

theorem confined_newCell {v : Value} (hv : r.Has v) : (newCell v).Confined r r.cells :=
  fun _ hw => ⟨hw.newCell (Nat.le_refl _), hw.addCell hv⟩

theorem confined_newFunction {c : Closure} (hc : c.Within r) :
    (newFunction c).Confined r r.functions :=
  fun _ hw => ⟨hw.newFunction (Nat.le_refl _), hw.addFunction hc⟩

/-- A loop is confined if each of its steps is and keeps what holds of its states. -/
theorem confined_iterate {σ : Type} {I : σ → Prop} {step : σ → Eval (σ ⊕ α)}
    (hstep : ∀ s, I s → (step s).Confined r (Sum.elim I P)) (n : Nat) {s : σ} (hs : I s) :
    (iterate step n s).Confined r P := by
  induction n generalizing s with
  | zero => exact fun _ hw => hw
  | succ n ih =>
    intro h hw
    have hstays := hstep s hs h hw
    unfold iterate
    split <;> rename_i hd <;> rw [hd] at hstays
    · exact ih hstays.1 _ hstays.2
    · exact hstays
    · exact hstays
    · exact hstays
    · refine ⟨hstays.1, fun a ha => (hstays.2 a ha).bind fun o ho => ?_⟩
      obtain ⟨s | a, h⟩ | _ | _ := o
      · exact ih ho.1 h ho.2
      · exact ho
      · exact ho
      · exact ho

theorem confined_repeating {σ : Type} (I : σ → Prop) {step : σ → Eval (σ ⊕ α)} {start : σ}
    (hstep : ∀ s, I s → (step s).Confined r (Sum.elim I P)) (hs : I start) :
    (repeating step start).Confined r P :=
  confined_iterate hstep roundLimit hs

theorem confined_mapM {γ : Type} {f : γ → Eval α} {xs : List γ}
    (hf : ∀ x ∈ xs, (f x).Confined r P) : (xs.mapM f).Confined r fun as => ∀ a ∈ as, P a := by
  induction xs with
  | nil => exact confined_pure nofun
  | cons x xs ih =>
    rw [List.mapM_cons]
    refine (hf x (by simp)).bind fun a ha => ?_
    refine (ih fun y hy => hf y (by simp [hy])).bind fun as has => ?_
    exact confined_pure (List.forall_mem_cons.2 ⟨ha, has⟩)

theorem confined_forM {γ : Type} {f : γ → Eval PUnit} {xs : List γ}
    (hf : ∀ x ∈ xs, (f x).Confined r fun _ => True) : (xs.forM f).Confined r fun _ => True := by
  induction xs with
  | nil => exact confined_pure trivial
  | cons x xs ih =>
    exact (hf x (by simp)).bind fun _ _ => ih fun y hy => hf y (by simp [hy])

theorem confined_foldlM {γ : Type} {f : β → γ → Eval β} {xs : List γ} {b : β}
    (hf : ∀ b x, x ∈ xs → Q b → (f b x).Confined r Q) (hb : Q b) :
    (xs.foldlM f b).Confined r Q := by
  induction xs generalizing b with
  | nil => exact confined_pure hb
  | cons x xs ih =>
    rw [List.foldlM_cons]
    exact (hf b x (by simp) hb).bind fun b hb => ih (fun b y hy => hf b y (by simp [hy])) hb

end Eval

/-! ### Contexts -/

/-- Calling a value of the realm with arguments of it is confined. -/
def Caller.Within (r : Realm) (call : Caller) : Prop :=
  ∀ {site f args}, site.Within r → r.Has f → r.HasAll args →
    (call site f args).Confined r r.HasAll

structure Context.Within (r : Realm) (c : Context) : Prop where
  site : c.site.Within r
  caller : Caller.Within r c.caller

open Eval

variable {c : Context} {f v w key : Value} {args : List Value}

theorem metatable?_within {h : Heap} (hw : h.Within r) (hv : r.Has v) {m : Nat}
    (hm : metatable? h r.home v = some m) : r.tables m := by
  cases v with
  | table p => exact (hw.table hv).metatable hm
  | text b =>
    cases hm
    exact hw.texts
  | foreign p =>
    cases hm
    exact hw.objects hv
  | _ => cases hm

theorem has_metamethod {h : Heap} (hw : h.Within r) (hv : r.Has v) (event : String) :
    r.Has (metamethod h r.home v event) := by
  unfold metamethod
  split
  · rename_i m hm
    exact hw.rawGet (metatable?_within hw hv hm) _
  · trivial

namespace Context.Within

variable (hc : c.Within r)

include hc

theorem call (hf : r.Has f) (ha : r.HasAll args) : (c.call f args).Confined r r.HasAll :=
  hc.caller hc.site hf ha

omit hc in
theorem has_raisable (hv : r.Has v) : r.Has (raisable v) := by
  cases v <;> exact hv

theorem raise {e : Value} (he : r.Has e) : (c.raise e : Eval α).Confined r P := by
  unfold Context.raise
  split
  · exact confined_raise he
  · split
    · exact confined_raise (has_raisable he)
    · rename_i g hg
      refine (hc.call (hc.site.handler hg) (Realm.hasAll_one he)).bind fun vs hvs => ?_
      exact confined_raise (has_raisable hvs.first)

theorem failAt (level : Nat) (message : Bytes) : (c.failAt level message : Eval α).Confined r P :=
  hc.raise trivial

theorem fail (message : Bytes) : (c.fail message : Eval α).Confined r P :=
  hc.failAt 0 message

theorem failWith (message : String) : (c.failWith message : Eval α).Confined r P :=
  hc.fail _

omit hc in
theorem failHandling : (Context.failHandling : Eval α).Confined r P :=
  confined_raise trivial

theorem checkStack (slot : Nat) : (c.checkStack slot).Confined r fun _ => True := by
  unfold Context.checkStack
  split
  · split
    · exact failHandling
    · exact confined_pure trivial
  · split
    · have full : ({ c with site := { c.site with isFull := true } } : Context).Within r :=
        ⟨⟨hc.site.home, hc.site.handler⟩, hc.caller⟩
      exact full.failWith _
    · exact confined_pure trivial

theorem anonymous : c.anonymous.Within r :=
  ⟨hc.site, hc.caller⟩

theorem metamethod (hv : r.Has v) (event : String) : (c.metamethod v event).Confined r r.Has :=
  confined_heap.bind fun _ hw => confined_pure (hc.site.home ▸ has_metamethod hw hv event)

theorem callMeta (hf : r.Has f) (ha : r.HasAll args) : (c.callMeta f args).Confined r r.Has :=
  (hc.call hf ha).bind fun _ hvs => confined_pure hvs.first

theorem failTypeAs (action : String) (v : Value) (described : Bytes) :
    (c.failTypeAs action v described : Eval α).Confined r P :=
  confined_heap.bind fun _ _ => hc.fail _

theorem failType (action : String) (operand : Nat) (v : Value) :
    (c.failType action operand v : Eval α).Confined r P :=
  hc.failTypeAs action v _

theorem failOperand (action : String) (a b : Value) :
    (c.failOperand action a b : Eval α).Confined r P := by
  unfold Context.failOperand
  split
  · exact hc.failType _ _ _
  · exact hc.failType _ _ _

/-! ### Fields -/

theorem index (hv : r.Has v) (hk : r.Has key) : (c.index v key).Confined r r.Has := by
  unfold Context.index
  generalize chainLimit = n
  induction n generalizing c v with
  | zero => exact hc.failWith _
  | succ n ih =>
    unfold Context.index.go
    refine Confined.bind (P := r.Has) (confined_look fun h hw => ?_) fun found hfound => ?_
    · split
      · exact hw.rawGet hv key
      · trivial
    split
    · exact confined_pure hfound
    · refine (hc.metamethod hv _).bind fun g hg => ?_
      split
      · split
        · exact confined_pure trivial
        · exact hc.failType _ _ _
      · exact hc.callMeta hg (Realm.hasAll_two hv hk)
      · exact hc.callMeta hg (Realm.hasAll_two hv hk)
      · exact ih hc.anonymous hg

theorem rawSet (place : Nat) (hk : r.Has key) (hv : r.Has v) :
    (c.rawSet place key v).Confined r fun _ => True := by
  have sets : (Eval.modifyHeap (·.rawSet place key v)).Confined r fun _ => True :=
    confined_modifyHeap fun _ hw => hw.rawSet place hk hv
  unfold Context.rawSet
  split
  · exact hc.failWith _
  · split
    · exact hc.failWith _
    · exact sets
  · exact sets

theorem setIndex (hv : r.Has v) (hk : r.Has key) (hw : r.Has w) :
    (c.setIndex v key w).Confined r fun _ => True := by
  have hargs : ∀ {v}, r.Has v → r.HasAll [v, key, w] := fun hv => .cons hv (Realm.hasAll_two hk hw)
  unfold Context.setIndex
  generalize chainLimit = n
  induction n generalizing c v with
  | zero => exact hc.failWith _
  | succ n ih =>
    unfold Context.setIndex.go
    refine Confined.bind (P := r.Has) (confined_look fun h hh => ?_) fun g hg => ?_
    · have handler := has_metamethod hh hv "__newindex"
      rw [← hc.site.home] at handler
      split
      · split
        · trivial
        · exact handler
      · exact handler
    split
    · split
      · exact hc.rawSet _ hk hw
      · exact hc.failType _ _ _
    · exact (hc.call hg (hargs hv)).bind fun _ _ => confined_pure trivial
    · exact (hc.call hg (hargs hv)).bind fun _ _ => confined_pure trivial
    · exact ih hc.anonymous hg

/-! ### Arithmetic -/

omit hc in
theorem has_ofNumeral (n : Numeral) : r.Has (.ofNumeral n) := by
  cases n <;> trivial

theorem ofArith (x : Except ArithFault Numeral) : (c.ofArith x).Confined r r.Has := by
  cases x with
  | ok n => exact confined_pure (has_ofNumeral n)
  | error f => exact hc.failWith _

theorem binaryMeta (event : String) (hv : r.Has v) (hw : r.Has w) :
    (c.binaryMeta event v w).Confined r r.Has := by
  refine (hc.metamethod hv event).bind fun g hg => ?_
  split
  · exact hc.metamethod hw event
  · exact confined_pure hg

theorem failFraction (a : Numeral) : (c.failFraction a : Eval α).Confined r P :=
  hc.fail _

theorem arith (op : ArithOp) (hv : r.Has v) (hw : r.Has w) :
    (c.arith op v w).Confined r r.Has := by
  unfold Context.arith
  dsimp only
  split
  · exact hc.ofArith _
  · refine (hc.binaryMeta _ hv hw).bind fun g hg => ?_
    split
    · split
      · split
        · exact hc.failFraction _
        · exact hc.failOperand _ _ _
      · exact hc.failOperand _ _ _
    · exact hc.callMeta hg (Realm.hasAll_two hv hw)

theorem length (hv : r.Has v) : (c.length v).Confined r r.Has := by
  unfold Context.length
  split
  · exact confined_pure trivial
  · refine (hc.metamethod hv _).bind fun g hg => ?_
    split
    · exact (confined_measure _).bind fun _ _ => confined_pure trivial
    · exact hc.failType _ _ _
    · exact hc.callMeta hg (Realm.hasAll_two hv hv)

theorem unary (op : UnaryOp) (hv : r.Has v) : (c.unary op v).Confined r r.Has := by
  unfold Context.unary
  split
  · exact confined_pure trivial
  · exact hc.length hv
  · split
    · exact confined_pure (has_ofNumeral _)
    · refine (hc.metamethod hv _).bind fun g hg => ?_
      split
      · exact hc.failType _ _ _
      · exact hc.callMeta hg (Realm.hasAll_two hv hv)
  · split
    · exact confined_pure trivial
    · refine (hc.metamethod hv _).bind fun g hg => ?_
      split
      · split
        · exact hc.failFraction _
        · exact hc.failType _ _ _
      · exact hc.callMeta hg (Realm.hasAll_two hv hv)

/-! ### Comparison and text -/

theorem less (orEqual : Bool) (hv : r.Has v) (hw : r.Has w) :
    (c.less orEqual v w).Confined r fun _ => True := by
  unfold Context.less
  split
  · exact confined_pure trivial
  · exact confined_pure trivial
  · refine (hc.binaryMeta _ hv hw).bind fun g hg => ?_
    split
    · refine confined_heap.bind fun _ _ => ?_
      dsimp only
      split <;> exact hc.fail _
    · exact (hc.callMeta hg (Realm.hasAll_two hv hw)).bind fun _ _ => confined_pure trivial

theorem equal (hv : r.Has v) (hw : r.Has w) : (c.equal v w).Confined r fun _ => True := by
  unfold Context.equal
  split
  · exact confined_pure trivial
  · split
    · refine (hc.binaryMeta _ hv hw).bind fun g hg => ?_
      split
      · exact confined_pure trivial
      · exact (hc.callMeta hg (Realm.hasAll_two hv hw)).bind fun _ _ => confined_pure trivial
    · exact confined_pure trivial

theorem compare (op : CompareOp) (hv : r.Has v) (hw : r.Has w) :
    (c.compare op v w).Confined r fun _ => True := by
  cases op with
  | eq => exact hc.equal hv hw
  | lt => exact hc.less false hv hw
  | le => exact hc.less true hv hw

theorem concat (hv : r.Has v) (hw : r.Has w) : (c.concat v w).Confined r r.Has := by
  unfold Context.concat
  split
  · exact confined_pure trivial
  · refine (hc.binaryMeta _ hv hw).bind fun g hg => ?_
    split
    · split
      · exact hc.failType _ _ _
      · exact hc.failType _ _ _
    · exact hc.callMeta hg (Realm.hasAll_two hv hw)

theorem shown (hv : r.Has v) : (c.show v).Confined r fun _ => True := by
  unfold Context.show
  refine (hc.metamethod hv _).bind fun g hg => ?_
  split
  · refine confined_heap.bind fun _ _ => ?_
    dsimp only
    split <;> exact confined_pure trivial
  · refine (hc.callMeta hg (Realm.hasAll_one hv)).bind fun _ _ => ?_
    split
    · exact confined_pure trivial
    · exact hc.failAt _ _

end Context.Within

end ScriptHost.Script
