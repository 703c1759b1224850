import ScriptHost.Proofs.Confinement
import ScriptHost.Script.Library.Natives

/-!
# Basic functions are confined

A basic function gives and raises nothing from outside of a realm, where what it is given is in the
realm and what it calls is confined. Two of them give another function, which has to be in the
realm: `pairs` and `ipairs` give the step of a loop.
-/
namespace ScriptHost.Script

open Text (Bytes)
open Number (Binary64)
open Library Eval

variable {α : Type} {r : Realm} {P : α → Prop}

/-- A call from the realm. -/
structure Library.Invocation.Within (r : Realm) (c : Invocation) : Prop
    extends c.toContext.Within r where
  args : r.HasAll c.args

namespace Library.Invocation.Within

variable {c : Invocation} (hc : c.Within r)

include hc

/-! ### Arguments -/

theorem arg (n : Nat) : r.Has (c.arg n) :=
  hc.args.getD _

theorem refuse (message : String) : (c.refuse message : Eval α).Confined r P :=
  hc.failAt 1 _

theorem failArg (n : Nat) (why : Bytes) : (c.failArg n why : Eval α).Confined r P := by
  unfold Invocation.failArg
  refine confined_heap.bind fun _ _ => ?_
  dsimp only
  split
  · exact hc.failAt _ _
  · split
    · split
      · exact hc.failAt _ _
      · exact hc.failAt _ _
    · exact hc.failAt _ _

theorem failArgWith (n : Nat) (why : String) : (c.failArgWith n why : Eval α).Confined r P :=
  hc.failArg n _

theorem failType (n : Nat) (expected : String) :
    (Invocation.failType c n expected : Eval α).Confined r P := by
  have argType : (c.argType n).Confined r fun _ => True := by
    unfold Invocation.argType
    split
    · refine confined_heap.bind fun _ _ => ?_
      split <;> exact confined_pure trivial
    · exact confined_pure trivial
  exact argType.bind fun _ _ => hc.failArg n _

theorem any (n : Nat) : (c.any n).Confined r r.Has := by
  unfold Invocation.any
  split
  · exact confined_pure (hc.arg n)
  · exact hc.failArgWith n _

theorem table (n : Nat) : (c.table n).Confined r r.tables := by
  have hn := hc.arg n
  unfold Invocation.table
  split
  · rename_i t ht
    exact confined_pure (show r.Has (.table t) from ht ▸ hn)
  · exact hc.failType n _

theorem callable (n : Nat) : (c.callable n).Confined r fun _ => True := by
  unfold Invocation.callable
  split
  · exact confined_pure trivial
  · exact confined_pure trivial
  · exact hc.failType n _

theorem int (n : Nat) : (c.int n).Confined r fun _ => True := by
  unfold Invocation.int
  split
  · exact confined_pure trivial
  · split
    · exact hc.failArgWith n _
    · exact hc.failType n _

theorem intOr (n : Nat) (other : Int64) : (c.intOr n other).Confined r fun _ => True := by
  unfold Invocation.intOr
  split
  · exact confined_pure trivial
  · exact hc.int n

theorem number (n : Nat) : (c.number n).Confined r fun _ => True := by
  unfold Invocation.number
  split
  · exact confined_pure trivial
  · exact hc.failType n _

theorem float (n : Nat) : (c.float n).Confined r fun _ => True :=
  (hc.number n).map fun _ _ => trivial

theorem text (n : Nat) : (c.text n).Confined r fun _ => True := by
  unfold Invocation.text
  split
  · exact confined_pure trivial
  · exact hc.failType n _

theorem textOr (n : Nat) (other : Bytes) : (c.textOr n other).Confined r fun _ => True := by
  unfold Invocation.textOr
  split
  · exact confined_pure trivial
  · exact hc.text n

end Library.Invocation.Within

/-! ### Protected calls and new functions -/

namespace Context.Within

variable {c : Context} (hc : c.Within r)

include hc

theorem closeAll {e : Value} {values : List Value} (he : r.Has e) (hv : r.HasAll values) :
    (c.closeAll e values).Confined r r.Has := by
  refine confined_repeating (fun s => r.Has s.1 ∧ r.HasAll s.2) (fun s hs => ?_) ⟨he, hv⟩
  obtain ⟨e, values⟩ := s
  obtain ⟨he, hv⟩ := hs
  cases values with
  | nil => exact confined_pure he
  | cons v rest =>
    obtain ⟨hv, hrest⟩ := Realm.hasAll_cons.1 hv
    refine (hc.metamethod hv _).bind fun close hclose => ?_
    refine (hc.call hclose (Realm.hasAll_two hv he)).attempt.bind fun x hx => ?_
    cases x with
    | ok _ => exact confined_pure ⟨he, hrest⟩
    | error x => exact confined_pure ⟨hx.1, hx.2.append hrest⟩

theorem protect {handler : Option Value} {f : Value} {args : List Value}
    (hh : ∀ {g}, handler = some g → r.Has g) (hf : r.Has f) (ha : r.HasAll args) :
    (c.protect handler f args).Confined r fun
      | .ok vs => r.HasAll vs
      | .error e => r.Has e := by
  have inner : ({ c with site := { c.site with handler := handler } } : Context).Within r :=
    ⟨⟨hc.site.home, hh⟩, hc.caller⟩
  refine (inner.call hf ha).attempt.bind fun x hx => ?_
  cases x with
  | ok vs => exact confined_pure hx
  | error x => exact (inner.closeAll hx.1 hx.2).bind fun _ he => confined_pure he

end Context.Within

theorem confined_compile {home : Nat} {globals : Value} (hh : home = r.home) (hg : r.Has globals)
    (given source : Bytes) (depth : Nat) : (compile home globals given source depth).Confined r fun
      | .ok f => r.Has f
      | .error _ => True := by
  unfold compile
  split
  · exact confined_pure trivial
  · dsimp only
    split
    · exact confined_pure trivial
    · rename_i code _
      refine (confined_newCell hg).bind fun cell hcell => ?_
      have closure : Closure.Within r ⟨home, code, #[cell]⟩ :=
        ⟨hh, fun n hn => by rwa [Array.mem_singleton.1 hn]⟩
      exact (confined_newFunction closure).bind fun _ hf => confined_pure hf

/-! ### Basic functions -/

namespace Library.Invocation.Within

variable {c : Invocation} (hc : c.Within r)

include hc

theorem raiseAt {v : Value} (hv : r.Has v) (level : Int) :
    (raiseAt c v level : Eval α).Confined r P := by
  unfold Library.raiseAt
  split
  · split
    · exact hc.failAt _ _
    · exact hc.raise trivial
  · exact hc.raise hv

theorem assert : (assert c).Confined r r.HasAll := by
  unfold Library.assert
  split
  · exact confined_pure hc.args
  · refine (hc.any 1).bind fun _ _ => ?_
    refine hc.raiseAt ?_ 1
    split
    · exact hc.arg 2
    · trivial

theorem error : (error c).Confined r r.HasAll :=
  (hc.intOr 2 1).bind fun _ _ => hc.raiseAt (hc.arg 1) _

theorem attemptAt {handler : Option Value} {f : Value} {args : List Value} (shift : Nat)
    (hh : ∀ {g}, handler = some g → r.Has g) (hf : r.Has f) (ha : r.HasAll args) :
    (attemptAt c handler shift f args).Confined r r.HasAll := by
  have inner : ({ c.toContext with
      site := { c.site with top := c.site.top - c.args.length + shift } } : Context).Within r :=
    ⟨⟨hc.site.home, hc.site.handler⟩, hc.caller⟩
  refine (inner.protect hh hf ha).bind fun x hx => confined_pure ?_
  cases x with
  | ok vs => exact .cons trivial hx
  | error e => exact Realm.hasAll_two trivial hx

theorem pcall : (pcall c).Confined r r.HasAll :=
  (hc.any 1).bind fun _ hf => hc.attemptAt 1 nofun hf (hc.args.drop 1)

theorem xpcall : (xpcall c).Confined r r.HasAll := by
  refine (hc.callable 2).bind fun _ _ => hc.attemptAt 3 ?_ (hc.arg 1) (hc.args.drop 2)
  rintro _ ⟨⟩
  exact hc.arg 2

theorem type : (type c).Confined r r.HasAll :=
  (hc.any 1).bind fun _ _ => confined_pure (Realm.hasAll_one trivial)

theorem tostring : (tostring c).Confined r r.HasAll :=
  (hc.any 1).bind fun _ hv => (hc.shown hv).bind fun _ _ => confined_pure (Realm.hasAll_one trivial)

theorem print : (print c).Confined r r.HasAll := by
  refine (confined_forM fun v hv => ?_).bind fun _ _ => confined_pure Realm.hasAll_nil
  exact (hc.shown (hc.args v hv)).map fun _ _ => trivial

theorem tonumber : (tonumber c).Confined r r.HasAll := by
  unfold Library.tonumber
  split
  · split
    · exact confined_pure (Realm.hasAll_one (Context.Within.has_ofNumeral _))
    · exact (hc.any 1).bind fun _ _ => confined_pure (Realm.hasAll_one trivial)
  · refine (hc.int 2).bind fun _ _ => ?_
    split
    · split
      · refine confined_pure (Realm.hasAll_one ?_)
        generalize readInBase? _ _ = n
        cases n <;> trivial
      · exact hc.failArgWith 2 _
    · exact hc.failType 1 _

theorem select : (select c).Confined r r.HasAll := by
  unfold Library.select
  dsimp only
  split
  · exact confined_pure (Realm.hasAll_one trivial)
  · refine (hc.int 1).bind fun n _ => ?_
    generalize (if n.toInt < 0 then _ else n.toInt : Int) = n
    split
    · exact hc.failArgWith 1 _
    · exact confined_pure ((hc.args.drop 1).drop _)

/-! ### Metatables and fields -/

theorem getmetatable : (getmetatable c).Confined r r.HasAll := by
  refine (hc.any 1).bind fun v hv => confined_heap.bind fun h hw => ?_
  split
  · exact confined_pure (Realm.hasAll_one trivial)
  · rename_i m hm
    refine (hc.metamethod hv _).bind fun shield hs => ?_
    split
    · exact confined_pure (Realm.hasAll_one (metatable?_within hw hv (hc.site.home ▸ hm)))
    · exact confined_pure (Realm.hasAll_one hs)

theorem setmetatable : (setmetatable c).Confined r r.HasAll := by
  refine (hc.table 1).bind fun t ht => ?_
  have rest : ∀ m : Option Nat, (∀ {p}, m = some p → r.tables p) → Confined r r.HasAll (do
      if (← shieldOf c (.table t)) ≠ .nil then c.refuse "cannot change a protected metatable"
      Eval.modifyHeap (·.changeTable t ({ · with metatable := m }))
      return [.table t]) := by
    intro m hm
    refine (hc.metamethod (v := .table t) ht _).bind fun _ _ => ?_
    have changes : Confined r r.HasAll (do
        Eval.modifyHeap (·.changeTable t ({ · with metatable := m }))
        return [.table t]) :=
      (confined_modifyHeap fun _ hw => hw.changeTable t fun _ ht => ht.withMetatable hm).bind
        fun _ _ => confined_pure (Realm.hasAll_one ht)
    dsimp only
    split
    · exact Confined.bind (P := fun _ => True) (hc.refuse _) fun _ _ => changes
    · exact changes
  have second := hc.arg 2
  dsimp only
  split
  · exact (confined_pure nofun).bind rest
  · rename_i m hm
    rw [hm] at second
    refine (confined_pure ?_).bind rest
    rintro _ ⟨⟩
    exact second
  · exact Confined.bind (hc.failType 2 _) rest

theorem rawequal : (rawequal c).Confined r r.HasAll :=
  (hc.any 1).bind fun _ _ => (hc.any 2).bind fun _ _ => confined_pure (Realm.hasAll_one trivial)

theorem rawget : (rawget c).Confined r r.HasAll :=
  (hc.table 1).bind fun _ ht => (hc.any 2).bind fun key _ => confined_heap.bind fun _ hw =>
    confined_pure (Realm.hasAll_one (hw.rawGet ht key))

theorem rawlen : (rawlen c).Confined r r.HasAll := by
  unfold Library.rawlen
  split
  · exact (confined_measure _).bind fun _ _ => confined_pure (Realm.hasAll_one trivial)
  · exact confined_pure (Realm.hasAll_one trivial)
  · exact hc.failType 1 _

theorem rawset : (rawset c).Confined r r.HasAll := by
  refine (hc.table 1).bind fun _ ht => (hc.any 2).bind fun _ hk => (hc.any 3).bind fun _ hv => ?_
  exact (hc.rawSet _ hk hv).bind fun _ _ => confined_pure (Realm.hasAll_one ht)

/-! ### Walks -/

theorem next : (next c).Confined r r.HasAll := by
  refine (hc.table 1).bind fun t ht => confined_heap.bind fun h hw => ?_
  dsimp only
  split
  · exact hc.failWith _
  · split
    · rename_i k v he
      obtain ⟨hk, hv⟩ := (hw.table ht).next he
      exact confined_pure (Realm.hasAll_two hk hv)
    · exact confined_pure (Realm.hasAll_one trivial)

theorem pairs (hn : r.natives .next) : (pairs c).Confined r r.HasAll := by
  refine (hc.any 1).bind fun v hv => (hc.metamethod hv _).bind fun f hf => ?_
  split
  · exact confined_pure (.cons hn (.cons hv (Realm.hasAll_two trivial trivial)))
  · refine (hc.call hf (Realm.hasAll_one hv)).bind fun vs hvs => confined_pure ?_
    exact (hvs.append (Realm.hasAll_replicate (v := .nil) 4 trivial)).take 4

theorem ipairs (hn : r.natives .ipairsStep) : (ipairs c).Confined r r.HasAll :=
  (hc.any 1).bind fun _ hv => confined_pure (.cons hn (Realm.hasAll_two hv trivial))

theorem ipairsStep : (ipairsStep c).Confined r r.HasAll := by
  refine (hc.int 2).bind fun _ _ => Confined.bind (hc.index (hc.arg 1) ?_) fun v hv => ?_
  · trivial
  split
  · exact confined_pure (Realm.hasAll_one trivial)
  · exact confined_pure (Realm.hasAll_two trivial hv)

/-! ### Making functions -/

theorem made {mode given source : Bytes} : (make c mode given source).Confined r r.HasAll := by
  have unmade : ∀ message, (Pure.pure (notMade message) : Eval _).Confined r r.HasAll := fun _ =>
    confined_pure (Realm.hasAll_two (v := .nil) trivial trivial)
  refine confined_ite (fun _ => unmade _) fun _ => ?_
  · refine confined_heap.bind fun h hw => ?_
    have globals : r.Has (if c.has 4 then c.arg 4
        else .table (h.environment c.site.home).globals) := by
      split
      · exact hc.arg 4
      · exact hc.site.home ▸ hw.globals
    refine (confined_compile hc.site.home globals _ _ _).bind fun x hx => ?_
    cases x with
    | ok f => exact confined_pure (Realm.hasAll_one hx)
    | error message => exact unmade message

theorem pieces {f : Value} (hf : r.Has f) : (pieces c f).Confined r fun _ => True := by
  refine confined_repeating (fun _ => True) (fun acc _ => ?_) trivial
  refine (hc.call hf Realm.hasAll_nil).bind fun vs _ => ?_
  split
  · exact confined_pure trivial
  · split
    · exact confined_pure trivial
    · exact confined_pure trivial
    · exact hc.refuse _

theorem load : (load c).Confined r r.HasAll := by
  refine (hc.textOr 3 _).bind fun mode _ => confined_guard (hc.failArgWith 3 _) ?_
  refine (hc.textOr 2 _).bind fun given _ => ?_
  split
  · exact hc.made
  · refine (hc.callable 1).bind fun _ _ => (hc.pieces (hc.arg 1)).attempt.bind fun x hx => ?_
    cases x with
    | ok source => exact hc.made
    | error e =>
      exact (hc.closeAll hx.1 hx.2).bind fun _ he => confined_pure (Realm.hasAll_two trivial he)

theorem collectgarbage : (collectgarbage c).Confined r r.HasAll := by
  refine (hc.textOr 1 _).bind fun option _ => ?_
  split <;> first | exact confined_pure (Realm.hasAll_one trivial) | exact hc.failArg 1 _

end Library.Invocation.Within

end ScriptHost.Script
