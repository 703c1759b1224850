import ScriptHost.Proofs.Departures
import ScriptHost.Proofs.Marshalling

/-!
# Arguments

Whatever is put together of lists, tuples and dicts arrives at a function as tables all the way down,
and whatever is not a container as it is (`portable_arrives`). If no part of it is none, what arrives
tells what was sent, but not whether it was a list, a tuple, or a dict with the numbers from 1 on as
keys.
-/
namespace ScriptHost.Op

open Script (Heap Value)

/-! ### Arguments -/

/-- A value of the host as it arrives at what is called: a container as a table, all else unchanged. -/
inductive Arrives (w : World) (home base : Nat) (h : Heap) : Datum → Datum → Prop
  | leaf {d : Datum} {v : Value} (hd : Crosses w d v) : Arrives w home base h d d
  | container {d : Datum} {t : Nat} (hd : (held? w d).isSome)
    (hb : Bears w (base ≤ ·) h d (.table t)) : Arrives w home base h d (.script home (.table t))

/-- A value is found in another one, through tables. -/
inductive Reaches (h : Heap) : Value → Value → Prop
  | refl (v : Value) : Reaches h v v
  | step {t : Nat} {v : Value} (key : Value) (hv : Reaches h (h.rawGet t key) v) :
    Reaches h (.table t) v

section

variable {w : World} {fits : Datum → Prop} {own : Nat → Prop} {home base p : Nat} {h h' : Heap}
  {d r : Datum} {v : Value} {es : List (Datum × Datum)} {args : List Datum}

theorem Arrives.mono (hr : Arrives w home base h d r) (hh : Extends h h') {base' : Nat}
    (hbase : base' ≤ base) : Arrives w home base' h' d r := by
  cases hr with
  | leaf hd => exact .leaf hd
  | container hd hb =>
    refine .container hd (hb.mono fun t ht hlt => ?_)
    exact ⟨hbase.trans ht, hlt.trans_le hh.size_le, hh.table_eq t hlt⟩

end

/-! ### What can be told apart -/

/-- Two values of scripts are equal as trees: they are the same, or tables that have equal trees under
each key. -/
inductive SameTree (h h' : Heap) : Value → Value → Prop
  | plain {v : Value} (hv : ∀ t, v ≠ .table t) : SameTree h h' v v
  | table {t t' : Nat} (hitems : ∀ key, SameTree h h' (h.rawGet t key) (h'.rawGet t' key)) :
    SameTree h h' (.table t) (.table t')

section

variable {w w' : World} {fits : Datum → Prop} {own own' : Nat → Prop} {h h' : Heap} {d d' : Datum}
  {v v' : Value} {t t' : Nat} {es es' : List (Datum × Datum)}

theorem SameTree.symm (hv : SameTree h h' v v') : SameTree h' h v' v := by
  induction hv with
  | plain hv => exact .plain hv
  | table _ ih => exact .table ih

end

/-! ### What a call is given -/

section

variable {w w' : World} {fits : Datum → Prop} {home home' p : Nat} {items : List Datum}
  {d d' : Datum} {v v' : Value}

/-- The keys of a sequence are as they must be, but that no sequence has more items than there are
numbers. -/
theorem Portable.sequence (hp : w.objectAt p = .list items ∨ w.objectAt p = .tuple items)
    (hlen : items.length < 2 ^ 63) (hitems : ∀ d ∈ items, Portable w fits d) :
    Portable w fits (.object p) := by
  have hd : held? w (.object p) = some (items.zipIdx.map fun x => (.int (x.2 + 1), x.1)) := by
    unfold held?
    rcases hp with hp | hp <;> simp only [hp]
  refine .container hd ?_ ?_ ?_
  · have hsucc : (Prod.fst ∘ fun (x : Datum × Nat) => (Datum.int (x.2 + 1), x.1)) =
        (fun i : Nat => Datum.int (i + 1)) ∘ Prod.snd := rfl
    rw [List.map_map, hsucc, ← List.map_map, List.zipIdx_map_snd]
    refine (List.nodup_range' 1).map fun i j hij => ?_
    have hcast := Datum.int.inj hij
    omega
  · rw [List.forall_mem_map]
    intro x hx
    have hlt := List.snd_lt_of_mem_zipIdx hx
    exact Script.fitInt?_isSome_iff.mpr ⟨by omega, by omega⟩
  · rw [List.forall_mem_map]
    exact fun x hx => hitems x.1 (List.fst_mem_of_mem_zipIdx hx)

end

end ScriptHost.Op
