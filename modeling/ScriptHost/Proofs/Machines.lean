import ScriptHost.Proofs.Libraries
import ScriptHost.Script.Run

/-!
# Runs are confined

A machine is within a realm if its frames and the values it is to close are (`Machine.Within`). Each
instruction keeps it so, hence each step and each run, and calling a value of the realm is confined
whatever it calls in turn (`Site.Within.call`).
-/
namespace ScriptHost.Script

open Text (Bytes)
open Eval

variable {r : Realm}

/-! ### Frames -/

/-- What a register holds is in the realm. -/
def Slot.Within (r : Realm) : Slot → Prop
  | .value v => r.Has v
  | .cell n => r.cells n

structure Frame.Within (r : Realm) (f : Frame) : Prop where
  closure : f.closure.Within r
  registers : ∀ s ∈ f.registers, s.Within r
  extra : r.HasAll f.extra

theorem has_constant (c : Constant) : r.Has c.value := by
  cases c <;> trivial

namespace Frame.Within

variable {f : Frame} {h : Heap}

theorem value (hf : f.Within r) (hw : h.Within r) (register : Nat) :
    r.Has (f.value h register) := by
  unfold Frame.value
  split
  · rename_i v hv
    exact hf.registers _ (Array.mem_of_getElem? hv)
  · rename_i n hn
    exact hw.cell (hf.registers _ (Array.mem_of_getElem? hn))
  · trivial

theorem set (hf : f.Within r) (register : Nat) {s : Slot} (hs : s.Within r) :
    (f.set register s).Within r := by
  unfold Frame.set
  dsimp only
  split
  · refine ⟨hf.closure, fun s' hs' => ?_, hf.extra⟩
    rcases Array.mem_or_eq_of_mem_setIfInBounds hs' with h | h
    · exact hf.registers s' h
    · exact h ▸ hs
  · refine ⟨hf.closure, fun s' hs' => ?_, hf.extra⟩
    rcases Array.mem_or_eq_of_mem_setIfInBounds hs' with h | h
    · rcases Array.mem_append.1 h with h | h
      · exact hf.registers s' h
      · rw [(Array.mem_replicate.1 h).2]
        trivial
    · exact h ▸ hs

theorem unshare (hf : f.Within r) (hw : h.Within r) (first : Nat) :
    (f.unshare h first).Within r := by
  refine ⟨hf.closure, fun s hs => ?_, hf.extra⟩
  obtain ⟨i, hi, rfl⟩ := Array.mem_mapIdx.1 hs
  have hold := hf.registers _ (Array.getElem_mem hi)
  split
  · rename_i n hn
    rw [hn] at hold
    split
    · exact hw.cell hold
    · exact hn ▸ hold
  · exact hold

theorem enter {c : Closure} (hc : c.Within r) (entry : Nat) {args : List Value}
    (ha : r.HasAll args) (isTail : Bool) (below : Trace) :
    (Frame.enter c entry args isTail below).Within r := by
  refine ⟨hc, fun s hs => ?_, ?_⟩
  · rcases List.mem_append.1 (List.mem_toArray.1 hs) with h | h
    · obtain ⟨v, hv, rfl⟩ := List.mem_map.1 h
      exact (ha.take _) v hv
    · rw [List.eq_of_mem_replicate h]
      trivial
  · dsimp only [Frame.enter]
    split
    · exact ha.drop _
    · exact Realm.hasAll_nil

end Frame.Within

/-! ### Machines -/

structure Machine.Within (r : Realm) (m : Machine) : Prop where
  current : m.current.Within r
  waiting : ∀ f ∈ m.waiting, f.Within r
  closing : ∀ x ∈ m.closing, r.Has x.value

/-- A machine that goes on within a realm, or results of it. -/
abbrev Machine.Ends (r : Realm) : Machine ⊕ List Value → Prop :=
  Sum.elim (Machine.Within r) r.HasAll

namespace Machine.Within

variable {m : Machine} (hm : m.Within r)

include hm

theorem goTo (place : Nat) : (m.goTo place).Within r :=
  ⟨⟨hm.current.closure, hm.current.registers, hm.current.extra⟩, hm.waiting, hm.closing⟩

theorem branch (outcome expected : Bool) : (m.branch outcome expected).Within r := by
  unfold Machine.branch
  split
  · exact hm
  · exact hm.goTo _

theorem put (register : Nat) {v : Value} (hv : r.Has v) :
    (m.put register v).Confined r (Machine.Within r) := by
  intro h hw
  unfold Machine.put
  split
  · exact ⟨hm, hw.setCell _ hv⟩
  · exact ⟨⟨hm.current.set _ hv, hm.waiting, hm.closing⟩, hw⟩

theorem get (register : Nat) : (m.get register).Confined r r.Has :=
  fun _ hw => ⟨hm.current.value hw register, hw⟩

theorem operand (o : Operand) : (m.operand o).Confined r r.Has := by
  cases o with
  | register n => exact hm.get n
  | constant v => exact confined_pure (has_constant v)

theorem row (first count : Nat) : (m.row first count).Confined r r.HasAll :=
  fun _ hw => ⟨List.forall_mem_map.2 fun n _ => hm.current.value hw (first + n), hw⟩

theorem rowOf (first : Nat) (count : Option Nat) : (m.rowOf first count).Confined r r.HasAll :=
  hm.row _ _

omit hm in
theorem putRow (hm : m.Within r) (first : Nat) {vs : List Value} (hv : r.HasAll vs) :
    (m.putRow first vs).Confined r (Machine.Within r) := by
  induction vs generalizing m first with
  | nil => exact confined_pure hm
  | cons v rest ih =>
    obtain ⟨hv, hrest⟩ := Realm.hasAll_cons.1 hv
    exact (hm.put first hv).bind fun m hm => ih hm (first + 1) hrest

theorem putResults (first : Nat) (wanted : Option Nat) {vs : List Value} (hv : r.HasAll vs) :
    (m.putResults first wanted vs).Confined r (Machine.Within r) := by
  cases wanted with
  | some n =>
    exact hm.putRow first ((hv.take n).append (Realm.hasAll_replicate (v := .nil) _ trivial))
  | none =>
    refine (hm.putRow first hv).bind fun m hm => confined_pure ?_
    exact ⟨⟨hm.current.closure, hm.current.registers, hm.current.extra⟩, hm.waiting, hm.closing⟩

theorem unshare (first : Nat) : (m.unshare first).Confined r (Machine.Within r) :=
  fun _ hw => ⟨⟨hm.current.unshare hw first, hm.waiting, hm.closing⟩, hw⟩

theorem push {f : Frame} (hf : f.Within r) : (m.push f).Within r :=
  ⟨hf, List.forall_mem_cons.2 ⟨hm.current, hm.waiting⟩, hm.closing⟩

theorem leave {vs : List Value} (hv : r.HasAll vs) : (m.leave vs).Confined r (Ends r) := by
  have waiting := hm.waiting
  unfold Machine.leave
  split
  · exact confined_pure hv
  · rename_i f rest he
    obtain ⟨hf, hrest⟩ := List.forall_mem_cons.1 (he ▸ waiting)
    have next : Machine.Within r
        { m with current := f, waiting := rest, level := m.level - 1 } :=
      ⟨hf, hrest, hm.closing⟩
    dsimp only
    split
    · exact (next.putResults _ _ hv).bind fun _ hm => confined_pure hm
    · exact confined_pure next

theorem context {c : Context} (hc : c.Within r) (place : Nat) (names : Nat → Option Named) :
    (m.context c place names).Within r :=
  ⟨⟨hm.current.closure.home, hc.site.handler⟩, hc.caller⟩

end Machine.Within

/-! ### Calls -/

structure Prepared.Within (r : Realm) (p : Prepared) : Prop where
  script : ∀ {c}, p.function = .inl c → c.Within r
  library : ∀ {f}, p.function = .inr f → r.natives f
  args : r.HasAll p.args

namespace Context.Within

variable {c : Context} (hc : c.Within r)

include hc

theorem prepare {f : Value} {args : List Value} (hf : r.Has f) (ha : r.HasAll args) :
    (c.prepare f args).Confined r (Prepared.Within r) := by
  unfold Context.prepare
  generalize 0 = extra
  generalize handOnLimit + 1 = left
  induction left generalizing f args extra with
  | zero => exact hc.failWith _
  | succ left ih =>
    refine confined_heap.bind fun h hw => ?_
    split
    · rename_i place
      refine confined_pure ⟨?_, nofun, ha⟩
      rintro _ ⟨⟩
      cases hp : h.functions[place]? with
      | none => exact ⟨hc.site.home, fun n hn => absurd hn (Array.not_mem_empty n)⟩
      | some c => exact hw.closure hf hp
    · refine confined_pure ⟨nofun, ?_, ha⟩
      rintro _ ⟨⟩
      exact hf
    · have hg := hc.site.home ▸ has_metamethod hw hf "__call"
      split
      · exact hc.failTypeAs _ _ _
      · exact confined_ite (fun _ => hc.failWith _) fun _ => ih hg (.cons hf ha) _

theorem runNative (hr : r.Closed) {f : Native} {p : Prepared} (hf : r.natives f)
    (ha : r.HasAll p.args) (slot : Nat) : (c.runNative f p slot).Confined r r.HasAll := by
  refine (hc.checkStack _).bind fun _ _ => ?_
  refine (confined_modifyHeap fun _ hw => hw.call hf).bind fun _ _ => ?_
  exact Native.confined_run hr hf ⟨⟨⟨hc.site.home, hc.site.handler⟩, hc.caller⟩, ha⟩

end Context.Within

namespace Machine.Within

variable {m : Machine} {c : Context} (hm : m.Within r) (hc : c.Within r) (hr : r.Closed)

include hm hc hr

theorem call (base : Nat) (args results : Option Nat) :
    (m.call c base args results).Confined r (Ends r) := by
  refine (hm.get base).bind fun f hf => (hm.rowOf (base + 1) args).bind fun vs hvs => ?_
  refine (hc.prepare hf hvs).bind fun p hp => ?_
  dsimp only
  split
  · rename_i f hf
    refine (hc.runNative hr (hp.library hf) hp.args _).bind fun vs hvs => ?_
    exact (hm.putResults base results hvs).bind fun _ hm => confined_pure hm
  · rename_i f hf
    refine (hc.checkStack _).bind fun _ _ => confined_pure ?_
    exact hm.push (.enter (hp.script hf) _ hp.args _ _)

theorem tailCall (base : Nat) (args : Option Nat) :
    (m.tailCall c base args).Confined r (Ends r) := by
  refine (hm.get base).bind fun f hf => (hm.rowOf (base + 1) args).bind fun vs hvs => ?_
  refine (hc.prepare hf hvs).bind fun p hp => ?_
  dsimp only
  split
  · rename_i f hf
    exact (hc.runNative hr (hp.library hf) hp.args _).bind fun vs hvs => hm.leave hvs
  · rename_i f hf
    refine (hc.checkStack _).bind fun _ _ => confined_pure ?_
    exact ⟨.enter (hp.script hf) _ hp.args _ _, hm.waiting, hm.closing⟩

/-! ### Extra arguments and variables -/

omit hr in
theorem prepareExtra : (m.prepareExtra c).Confined r (Machine.Within r) := by
  unfold Machine.prepareExtra
  dsimp only
  split
  · refine (confined_newTable (within_ofItems _ _ ?_)).bind fun t ht => ?_
    · exact fun v hv => hm.current.extra v (List.mem_toArray.1 hv)
    · exact (confined_modifyHeap fun _ hw => hw.rawSet t Realm.has_text Realm.has_int).bind
        fun _ _ => hm.put _ ht
  · refine (hc.checkStack _).bind fun _ _ => confined_pure ?_
    exact ⟨⟨hm.current.closure, hm.current.registers, hm.current.extra⟩, hm.waiting, hm.closing⟩

omit hr in
theorem extraValues : (m.extraValues c).Confined r r.HasAll := by
  unfold Machine.extraValues
  dsimp only
  split
  · refine (hm.get _).bind fun t ht => ?_
    split
    · refine confined_heap.bind fun h hw => ?_
      split
      · refine confined_ite (fun _ => ?_) fun _ => hc.failWith _
        refine (hc.checkStack _).bind fun _ _ => confined_pure ?_
        exact List.forall_mem_map.2 fun k _ => hw.rawGet ht _
      · exact hc.failWith _
    · exact confined_pure Realm.hasAll_nil
  · exact confined_pure hm.current.extra

end Machine.Within

theorem Frame.Within.extraValue {f : Frame} (hf : f.Within r) (key : Value) :
    r.Has (Machine.extraValue f key) := by
  unfold Machine.extraValue
  split
  · split <;> trivial
  · split
    · split
      · exact hf.extra.getD _
      · trivial
    · trivial

namespace Machine.Within

variable {m : Machine} {c : Context} (hm : m.Within r)

include hm

theorem share (register : Nat) :
    (m.share register).Confined r fun s => r.cells s.1 ∧ s.2.Within r := by
  unfold Machine.share
  split
  · rename_i n hn
    exact confined_pure ⟨hm.current.registers _ (Array.mem_of_getElem? hn), hm⟩
  · refine (hm.get register).bind fun v hv => (confined_newCell hv).bind fun n hn => ?_
    exact confined_pure ⟨hn, hm.current.set _ hn, hm.waiting, hm.closing⟩

theorem upvalue {index n : Nat} (hn : m.upvalue? index = some n) : r.cells n :=
  hm.current.closure.upvalues n (Array.mem_of_getElem? hn)

theorem getUpvalue (index : Nat) : (m.getUpvalue index).Confined r r.Has := by
  refine confined_look fun h hw => ?_
  cases hn : m.upvalue? index with
  | none => trivial
  | some n => exact hw.cell (hm.upvalue hn)

omit hm in
theorem setUpvalue (index : Nat) {v : Value} (hv : r.Has v) :
    (m.setUpvalue index v).Confined r fun _ => True := by
  refine confined_modifyHeap fun h hw => ?_
  split
  · exact hw.setCell _ hv
  · exact hw

theorem makeFunction (dest : Nat) (code : Prototype) :
    (m.makeFunction dest code).Confined r (Machine.Within r) := by
  unfold Machine.makeFunction
  rw [← Array.foldlM_toList]
  refine Confined.bind (confined_foldlM (fun s u _ hs => ?_) ⟨hm, nofun⟩)
    (P := fun s : Machine × Array Nat => s.1.Within r ∧ ∀ n ∈ s.2, r.cells n) fun s hs => ?_
  · obtain ⟨m, cells⟩ := s
    obtain ⟨hm, hcells⟩ := hs
    have pushed : ∀ {n}, r.cells n → ∀ k ∈ cells.push n, r.cells k := fun hn k hk =>
      (Array.mem_push.1 hk).elim (hcells k) fun he => he ▸ hn
    refine confined_ite (fun _ => ?_) fun _ => ?_
    · refine (hm.share u.index).bind fun s hs => ?_
      exact confined_pure ⟨hs.2, pushed hs.1⟩
    · split
      · rename_i n hn
        exact (confined_pure (hm.upvalue hn)).bind fun n hn => confined_pure ⟨hm, pushed hn⟩
      · refine (confined_newCell (v := .nil) trivial).bind fun n hn => ?_
        exact confined_pure ⟨hm, pushed hn⟩
  · obtain ⟨m, cells⟩ := s
    obtain ⟨hm, hcells⟩ := hs
    have made : Closure.Within r ⟨m.current.closure.home, code, cells⟩ :=
      ⟨hm.current.closure.home, hcells⟩
    exact (confined_newFunction made).bind fun f hf => hm.put dest hf

theorem markClosing (hc : c.Within r) (register place : Nat) :
    (m.markClosing c register place).Confined r (Machine.Within r) := by
  refine (hm.get register).bind fun v hv => confined_ite (fun _ => confined_pure hm) fun _ => ?_
  refine (hc.metamethod hv _).bind fun _ _ => confined_guard (hc.fail _) (confined_pure ?_)
  exact ⟨hm.current, hm.waiting, List.forall_mem_cons.2 ⟨hv, hm.closing⟩⟩

theorem join {c : Nat → Context} (hc : ∀ n, (c n).Within r) (first n : Nat) {v : Value}
    (hv : r.Has v) : (m.join c first n v).Confined r r.Has := by
  induction n generalizing v with
  | zero => exact confined_pure hv
  | succ n ih =>
    refine (hm.get _).bind fun w hw => ((hc n).concat hw hv).bind fun v hv => ih hv

end Machine.Within

/-! ### Counted loops -/

/-- What a counted loop keeps is in the realm. -/
def Count.Within (r : Realm) (l : Count) : Prop :=
  r.HasAll [l.left, l.step, l.at_]

theorem Count.within_int {i j k : Int64} : Count.Within r ⟨.int i, .int j, .int k⟩ :=
  .cons trivial (Realm.hasAll_two trivial trivial)

theorem Count.within_float {x y z : Number.Binary64} :
    Count.Within r ⟨.float x, .float y, .float z⟩ :=
  .cons trivial (Realm.hasAll_two trivial trivial)

namespace Context.Within

variable {c : Context} (hc : c.Within r)

include hc

theorem countedBy (what : String) (v : Value) :
    (c.countedBy what v).Confined r fun _ => True := by
  unfold Context.countedBy
  split
  · exact confined_pure trivial
  · exact confined_heap.bind fun _ _ => hc.fail _

theorem beginCount (first last step : Value) :
    (c.beginCount first last step).Confined r fun l? => ∀ l ∈ l?, l.Within r := by
  have nowhere : (Pure.pure none : Eval (Option Count)).Confined r fun l? => ∀ l ∈ l?, l.Within r :=
    confined_pure fun l hl => absurd hl (Option.not_mem_none l)
  unfold Context.beginCount
  split
  · refine confined_guard (hc.failWith _) ?_
    refine (hc.countedBy _ _).bind fun _ _ => ?_
    split
    · exact nowhere
    · refine confined_ite (fun _ => nowhere) fun _ => confined_pure fun l hl => ?_
      exact Option.mem_some.1 hl ▸ Count.within_int
  · refine (hc.countedBy _ _).bind fun _ _ => (hc.countedBy _ _).bind fun _ _ => ?_
    refine (hc.countedBy _ _).bind fun _ _ => ?_
    refine confined_guard (hc.failWith _) (confined_pure fun l hl => ?_)
    exact Option.mem_some.1 (Option.mem_ite_none_left.1 hl).2 ▸ Count.within_float

end Context.Within

theorem Count.next_within {l next : Count} (h : l.next? = some next) : next.Within r := by
  obtain ⟨left, step, at_⟩ := l
  unfold Count.next? at h
  dsimp only at h
  split at h
  · rcases (Option.ite_none_left_eq_some ..).1 h with ⟨-, h⟩
    exact Option.some.inj h ▸ Count.within_int
  · rcases (Option.ite_none_right_eq_some ..).1 h with ⟨-, h⟩
    exact Option.some.inj h ▸ Count.within_float
  · cases h

/-! ### Instructions -/

namespace Machine.Within

variable {m : Machine} {c : Context} (hm : m.Within r) (hc : c.Within r) (hr : r.Closed)

include hm hc hr

theorem perform (place : Nat) (i : Instruction) :
    (m.perform c place i).Confined r (Ends r) := by
  have named : ∀ names, (m.context c place names).Within r := hm.context hc place
  have set : ∀ register {v}, r.Has v → (Sum.inl <$> m.put register v).Confined r (Ends r) :=
    fun register _ hv => (hm.put register hv).map fun _ hm => hm
  have done : (Pure.pure (.inl m) : Eval (Machine ⊕ List Value)).Confined r (Ends r) :=
    confined_pure hm
  have next : ∀ {n : Machine}, n.Within r →
      (Pure.pure (.inl n) : Eval (Machine ⊕ List Value)).Confined r (Ends r) := confined_pure
  cases i with
  | move dest source => exact (hm.get _).bind fun _ hv => set _ hv
  | load dest v => exact set _ (has_constant v)
  | loadNil first count =>
    exact (hm.putRow _ (Realm.hasAll_replicate (v := .nil) _ trivial)).bind fun _ hm => next hm
  | loadFalseSkip dest => exact (hm.put _ Realm.has_bool).bind fun _ hm => next (hm.goTo _)
  | getUpvalue dest u => exact (hm.getUpvalue u).bind fun _ hv => set _ hv
  | setUpvalue source u => exact (hm.get _).bind fun _ hv => (setUpvalue u hv).bind fun _ _ => done
  | getUpvalueField dest u key =>
    exact (hm.getUpvalue u).bind fun _ hv =>
      ((named _).index hv Realm.has_text).bind fun _ hv => set _ hv
  | getIndex dest object key =>
    exact (hm.get _).bind fun _ hv => (hm.get _).bind fun _ hk =>
      ((named _).index hv hk).bind fun _ hv => set _ hv
  | getInteger dest object key =>
    exact (hm.get _).bind fun _ hv => ((named _).index hv Realm.has_int).bind fun _ hv => set _ hv
  | getField dest object key =>
    exact (hm.get _).bind fun _ hv => ((named _).index hv Realm.has_text).bind fun _ hv => set _ hv
  | setUpvalueField u key v =>
    exact (hm.getUpvalue u).bind fun _ ht => (hm.operand v).bind fun _ hv =>
      ((named _).setIndex ht Realm.has_text hv).bind fun _ _ => done
  | setIndex object key v =>
    exact (hm.get _).bind fun _ ht => (hm.get _).bind fun _ hk => (hm.operand v).bind fun _ hv =>
      ((named _).setIndex ht hk hv).bind fun _ _ => done
  | setInteger object key v =>
    exact (hm.get _).bind fun _ ht => (hm.operand v).bind fun _ hv =>
      ((named _).setIndex ht Realm.has_int hv).bind fun _ _ => done
  | setField object key v =>
    exact (hm.get _).bind fun _ ht => (hm.operand v).bind fun _ hv =>
      ((named _).setIndex ht Realm.has_text hv).bind fun _ _ => done
  | newTable dest items pairs =>
    exact (confined_newTable (within_withRoom _ _ _)).bind fun _ ht => set _ ht
  | method dest object key =>
    exact (hm.get _).bind fun _ hv => ((named _).index hv Realm.has_text).bind fun _ hf =>
      (hm.put _ hv).bind fun _ hm => (hm.put _ hf).bind fun _ hm => next hm
  | arith op dest left right =>
    refine (hm.operand left).bind fun a ha => ?_
    split
    · exact set _ trivial
    · exact (hm.operand right).bind fun _ hb => ((named _).arith op ha hb).bind fun _ hv => set _ hv
  | unary op dest operand =>
    exact (hm.get _).bind fun _ hv => ((named _).unary op hv).bind fun _ hv => set _ hv
  | concat first count =>
    exact (hm.get _).bind fun _ hv =>
      (hm.join (fun _ => named _) first _ hv).bind fun _ hv => set _ hv
  | close first => exact (hm.unshare first).bind fun _ hm => next hm
  | toClose register => exact (hm.markClosing (named _) register place).bind fun _ hm => next hm
  | jump target close =>
    cases close with
    | some first => exact (hm.unshare first).bind fun _ hm => next (hm.goTo _)
    | none => exact (confined_pure hm).bind fun _ hm => next (hm.goTo _)
  | compare op left right expected =>
    exact (hm.operand left).bind fun _ ha => (hm.operand right).bind fun _ hb =>
      ((named _).compare op ha hb).bind fun _ _ => next (hm.branch _ _)
  | test register expected => exact (hm.get _).bind fun _ _ => next (hm.branch _ _)
  | testSet dest source expected =>
    exact (hm.get _).bind fun _ hv => confined_ite (fun _ => set _ hv) fun _ => next (hm.goTo _)
  | call base args results => exact hm.call (named _) hr base args results
  | tailCall base args => exact hm.tailCall (named _) hr base args
  | ret first count => exact (hm.rowOf first count).bind fun _ hvs => hm.leave hvs
  | countPrepare base target =>
    refine (hm.get _).bind fun _ _ => (hm.get _).bind fun _ _ => (hm.get _).bind fun _ _ => ?_
    refine ((named _).beginCount _ _ _).bind fun l hl => ?_
    cases l with
    | some l => exact (hm.putRow base (hl l rfl)).bind fun _ hm => next hm
    | none => exact next (hm.goTo _)
  | countLoop base target =>
    refine (hm.get _).bind fun _ _ => (hm.get _).bind fun _ _ => (hm.get _).bind fun _ _ => ?_
    dsimp only
    split
    · rename_i l hl
      exact (hm.putRow base (Count.next_within hl)).bind fun _ hm => next (hm.goTo _)
    · exact done
  | eachPrepare base target =>
    refine (hm.get _).bind fun _ hv => (hm.get _).bind fun _ hw => ?_
    refine (hm.putRow _ (Realm.hasAll_two hw hv)).bind fun n hn => ?_
    exact (hn.markClosing (named _) _ _).bind fun _ hm => next (hm.goTo _)
  | eachCall base count =>
    refine (hm.get _).bind fun _ hf => (hm.get _).bind fun _ hv => (hm.get _).bind fun _ hw => ?_
    have called : ({ m.context c place fun _ => none with
        site := { (m.context c place fun _ => none).site with
          top := m.current.base + 1 + base + 3 } } : Context).Within r :=
      ⟨⟨hm.current.closure.home, hc.site.handler⟩, hc.caller⟩
    refine (called.call hf (Realm.hasAll_two hv hw)).bind fun vs hvs => ?_
    exact (hm.putResults _ _ hvs).bind fun _ hm => next hm
  | eachLoop base target =>
    exact (hm.get _).bind fun _ _ => confined_ite (fun _ => done) fun _ => next (hm.goTo _)
  | setList table count skip =>
    refine (hm.rowOf _ _).bind fun vs hvs => (hm.get _).bind fun t _ => ?_
    split
    · exact (confined_modifyHeap fun _ hw => hw.changeTable _ fun _ ht => ht.setRow skip hvs).bind
        fun _ _ => done
    · exact done
  | closure dest index => exact (hm.makeFunction dest _).bind fun _ hm => next hm
  | varargs dest count =>
    exact (hm.extraValues (named _)).bind fun _ hvs =>
      (hm.putResults dest count hvs).bind fun _ hm => next hm
  | vararg dest source key => exact (hm.get _).bind fun _ _ => set _ (hm.current.extraValue _)
  | varargPrepare => exact (hm.prepareExtra (named _)).bind fun _ hm => next hm
  | checkNew register name =>
    exact (hm.get _).bind fun _ _ => confined_ite (fun _ => done) fun _ => (named _).fail _

omit hc hr in
theorem takeClosing {first : Nat} {v : Value} {n : Machine}
    (h : m.takeClosing? first = some (v, n)) : r.Has v ∧ n.Within r := by
  have closing := hm.closing
  unfold Machine.takeClosing? at h
  split at h
  · rename_i x rest he
    obtain ⟨hv, hn⟩ := (Option.ite_none_right_eq_some ..).1 h
    obtain ⟨rfl, rfl⟩ := Prod.mk.inj (Option.some.inj hn)
    obtain ⟨hx, hrest⟩ := List.forall_mem_cons.1 (he ▸ closing)
    exact ⟨hx, hm.current, hm.waiting, hrest⟩
  · cases h

/-- Each step keeps a machine within the realm, or ends with results of it. -/
theorem step : (m.step c).Confined r (Ends r) := by
  have left : ∀ {n : Machine}, n.Within r → r.HasAll (n.closing.map Closing.value) := fun hn =>
    List.forall_mem_map.2 hn.closing
  unfold Machine.step
  dsimp only
  split
  · rename_i v n hn
    obtain ⟨hv, hn⟩ : r.Has v ∧ n.Within r := by
      split at hn
      · cases hn
      · obtain ⟨first, -, hfirst⟩ := Option.bind_eq_some_iff.1 hn
        exact hm.takeClosing hfirst
    have context := hn.context hc m.current.place fun _ => none
    refine Confined.leaving ?_ (left hn)
    refine (context.metamethod hv _).bind fun _ hf => ?_
    exact (context.call hf (Realm.hasAll_one hv)).bind fun _ _ => confined_pure hn
  · have works := (hm.goTo (m.current.place + 1)).perform hc hr m.current.place m.instruction
    exact confined_ite (fun _ => works) fun _ => works.leaving (left hm)

omit hm in
theorem run {f : Frame} (hf : f.Within r) : (Machine.run c f).Confined r r.HasAll :=
  confined_repeating (Machine.Within r) (fun _ hm => hm.step hc hr) ⟨hf, nofun, nofun⟩

end Machine.Within

/-! ### Calling values -/

theorem Context.Within.enter {c : Context} (hc : c.Within r) (hr : r.Closed) {f : Value}
    {args : List Value} (hf : r.Has f) (ha : r.HasAll args) :
    (c.enter f args).Confined r r.HasAll := by
  refine (hc.prepare hf ha).bind fun p hp => ?_
  dsimp only
  split
  · rename_i f hf
    exact hc.runNative hr (hp.library hf) hp.args _
  · rename_i f hf
    refine (hc.checkStack _).bind fun _ _ => ?_
    exact Machine.Within.run hc hr (Frame.Within.enter (hp.script hf) _ hp.args _ _)

/-- Calling a value of the realm is confined, however many runs may wait for one another. -/
theorem callAt_within (hr : r.Closed) (left : Nat) : Caller.Within r (callAt left) := by
  induction left with
  | zero => exact fun _ _ _ => Context.Within.failHandling
  | succ left ih =>
    intro site f args hs hf ha
    have context : Context.Within r
        ⟨{ site with depth := site.depth + 1 }, callAt left, fun _ => []⟩ :=
      ⟨⟨hs.home, hs.handler⟩, ih⟩
    exact confined_ite (fun _ => context.failWith _) fun _ => context.enter hr hf ha

theorem Site.Within.call {s : Site} (hs : s.Within r) (hr : r.Closed) {f : Value}
    {args : List Value} (hf : r.Has f) (ha : r.HasAll args) :
    (s.call f args).Confined r r.HasAll :=
  callAt_within hr _ hs hf ha

theorem Site.Within.context {s : Site} (hs : s.Within r) (hr : r.Closed) :
    s.context.Within r :=
  ⟨hs, fun hs => hs.call hr⟩

/-- The function of a text is of the environment. -/
theorem Site.Within.prepareChunk {s : Site} (hs : s.Within r) (source : Bytes) :
    (prepareChunk s source).Confined r fun
      | .ok f => r.Has f
      | .error _ => True :=
  confined_heap.bind fun _ hw => confined_compile hs.home (hs.home ▸ hw.globals) _ _ _

end ScriptHost.Script
