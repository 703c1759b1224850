import ScriptHost.Proofs.Deeds

/-!
# Blocks of deeds

The shape of histories. What a call of `load` or `unload` does itself is a block; what foreign code
does meanwhile is woven in, blocks as a whole. Where nothing else begins to load or unload, a call
leaves its own deeds and deeds about subscriptions, no more.
-/
namespace ScriptHost

open Files (Path)

/-- What a load or an unloading does itself, from its first deed on. -/
inductive Block : List Deed → Prop
  /-- An unloading that is broken off. -/
  | unload {mid : List Deed} (h : ∀ d ∈ mid, d.isPlain) : Block (.unload :: mid)
  | unloaded {mid : List Deed} (h : ∀ d ∈ mid, d.isPlain) (told : ∃ d ∈ mid, d.isFarewell) :
      Block (.unload :: (mid ++ [.vacate]))
  | loaded {path : Path} {home ran : Nat} {a b c e : List Deed} (ha : ∀ d ∈ a, d.isSteady)
      (hb : ∀ d ∈ b, d.isSteady) (hc : ∀ d ∈ c, d.isSteady) (he : ∀ d ∈ e, d.isSteady) :
      Block (.load path :: (a ++ .occupy home :: (b ++ .body ran path ::
        (c ++ .adopt path :: (e ++ [.succeed])))))
  | failed {path : Path} {mid : List Deed} (h : ∀ d ∈ mid, d.isRising) :
      Block (.load path :: (mid ++ [.fail]))
  | aborted {path : Path} {mid : List Deed} (h : ∀ d ∈ mid, d.isRising) :
      Block (.load path :: (mid ++ [.abort]))

/-- `Woven own ds`: the deeds `own` in their order, and between them deeds about subscriptions and
whole blocks with what is woven into these. -/
inductive Woven : List Deed → List Deed → Prop
  | nil : Woven [] []
  | own (d : Deed) {own ds : List Deed} (h : Woven own ds) : Woven (d :: own) (d :: ds)
  | quiet {d : Deed} {own ds : List Deed} (hd : d.isQuiet) (h : Woven own ds) : Woven own (d :: ds)
  | nested {d : Deed} {block es own ds : List Deed} (hb : Block (d :: block)) (hi : Woven block es)
      (h : Woven own ds) : Woven own (d :: (es ++ ds))

theorem Block.isStart_head {d : Deed} {block : List Deed} (h : Block (d :: block)) : d.isStart := by
  cases h <;> rfl

namespace Woven

variable {own own' ds ds' : List Deed}

theorem append (h : Woven own ds) (h' : Woven own' ds') : Woven (own ++ own') (ds ++ ds') := by
  induction h with
  | nil => exact h'
  | own d _ ih => exact .own d ih
  | quiet hd _ ih => exact .quiet hd ih
  | nested hb hi _ _ ih =>
    rw [List.cons_append, List.append_assoc]
    exact .nested hb hi ih

/-- A block as a whole. -/
theorem block {d : Deed} (hb : Block (d :: own)) (h : Woven own ds) : Woven [] (d :: ds) := by
  simpa using Woven.nested hb h .nil

theorem subset (h : Woven own ds) : own ⊆ ds := by
  induction h with
  | nil => exact List.Subset.refl _
  | own d _ ih => exact List.cons_subset_cons d ih
  | quiet _ _ ih => exact List.subset_cons_of_subset _ ih
  | nested _ _ _ _ ih => exact List.subset_cons_of_subset _ (List.subset_append_of_subset_right _ ih)

theorem length_starts_le (h : Woven own ds) :
    (own.filter Deed.isStart).length ≤ (ds.filter Deed.isStart).length := by
  induction h with
  | nil => exact Nat.le_refl _
  | own d _ ih =>
    by_cases hd : d.isStart
    · simpa [hd] using ih
    · simpa [hd] using ih
  | @quiet d _ _ hd _ ih =>
    have hs := Deed.isStart_of_isQuiet hd
    simpa [hs] using ih
  | nested hb _ _ _ ih =>
    simp only [List.filter_cons_of_pos hb.isStart_head, List.filter_append, List.length_cons,
      List.length_append]
    omega

/-- No block is woven in: no more begins than among the own deeds. -/
def Alone (own ds : List Deed) : Prop :=
  (ds.filter Deed.isStart).length ≤ (own.filter Deed.isStart).length

instance (own ds : List Deed) : Decidable (Alone own ds) :=
  inferInstanceAs (Decidable (_ ≤ _))

theorem Alone.mono (h : Alone own ds) (hs : own.Sublist own') : Alone own' ds :=
  Nat.le_trans h (hs.filter _).length_le

theorem Alone.cons {d : Deed} (h : Alone [d] ds) (own : List Deed) : Alone (d :: own) ds :=
  h.mono (List.cons_sublist_cons.2 (List.nil_sublist own))

theorem alone_of_none (hn : ∀ d ∈ ds, d.isStart = false) (own : List Deed) : Alone own ds := by
  rw [Alone, List.filter_eq_nil_iff.2 fun d hd => by simp [hn d hd]]
  exact Nat.zero_le _

/-- A block is alone just when nothing begins after its first deed. -/
theorem alone_cons_iff {d : Deed} (hd : d.isStart) :
    Alone [d] (d :: ds) ↔ ∀ e ∈ ds, e.isStart = false := by
  rw [Alone, List.filter_cons_of_pos hd, List.filter_cons_of_pos hd, List.length_cons,
    List.length_cons, Nat.succ_le_succ_iff]
  simp

/-- Where nothing comes between two stretches, nothing comes between either of them. -/
theorem alone_of_append (h : Woven own ds) (h' : Woven own' ds')
    (alone : Alone (own ++ own') (ds ++ ds')) : Alone own ds ∧ Alone own' ds' := by
  have hl := h.length_starts_le
  have hl' := h'.length_starts_le
  simp only [Alone, List.filter_append, List.length_append] at alone ⊢
  omega

/-- If two operations begin one block each, nothing comes between in either. -/
theorem alone_of_append_pair {d e : Deed} (hd : d.isStart) (he : e.isStart)
    (h : Woven (d :: own) ds) (h' : Woven (e :: own') ds') (alone : Alone [d, e] (ds ++ ds')) :
    Alone [d] ds ∧ Alone [e] ds' := by
  have hl := h.length_starts_le
  have hl' := h'.length_starts_le
  simp only [Alone, List.filter_append, List.length_append, List.filter_cons_of_pos hd,
    List.filter_cons_of_pos he, List.filter_nil, List.length_cons, List.length_nil] at alone hl hl' ⊢
  omega

/-- Where no block is woven in, nothing comes between but deeds about subscriptions. -/
theorem filter_eq (h : Woven own ds) (alone : Alone own ds) {p : Deed → Bool}
    (hp : ∀ d, d.isQuiet → p d = false) : ds.filter p = own.filter p := by
  induction h with
  | nil => rfl
  | @own d own ds _ ih =>
    have ih := ih (by by_cases hd : d.isStart <;> simpa [Alone, hd] using alone)
    by_cases hd : p d
    · simp [hd, ih]
    · simp [hd, ih]
  | @quiet d own ds hd _ ih =>
    have hs := Deed.isStart_of_isQuiet hd
    rw [List.filter_cons_of_neg (by simp [hp d hd])]
    exact ih (by simpa [Alone, hs] using alone)
  | nested hb _ h _ _ =>
    have hl := h.length_starts_le
    simp only [Alone, List.filter_cons_of_pos hb.isStart_head, List.filter_append,
      List.length_cons, List.length_append] at alone
    omega

theorem filter_quiet_eq (h : Woven own ds) (alone : Alone own ds) :
    ds.filter (!·.isQuiet) = own.filter (!·.isQuiet) :=
  h.filter_eq alone fun d hd => by simp [hd]

theorem count_eq (h : Woven own ds) (alone : Alone own ds) {d : Deed} (hd : d.isQuiet = false) :
    ds.count d = own.count d := by
  have hc : ∀ e : Deed, e.isQuiet → (e == d) = false := by
    intro e he
    refine beq_false_of_ne ?_
    rintro rfl
    rw [hd] at he
    exact Bool.false_ne_true he
  rw [List.count_eq_countP, List.count_eq_countP, List.countP_eq_length_filter,
    List.countP_eq_length_filter, h.filter_eq alone hc]

/-- Where no block is woven in, what is held follows from the own deeds. -/
theorem replay_eq (h : Woven own ds) (alone : Alone own ds) (s : Holding) :
    s.replay ds = s.replay own := by
  rw [← Holding.replay_filter_quiet, h.filter_quiet_eq alone, Holding.replay_filter_quiet]

/-- Where no block is woven in, each of the own deeds can happen after those before it. -/
theorem admitsAll (h : Woven own ds) (alone : Alone own ds) {s : Holding}
    (ha : s.AdmitsAll ds) : s.AdmitsAll own := by
  rw [← Holding.admitsAll_filter_quiet, ← h.filter_quiet_eq alone]
  exact Holding.admitsAll_filter_quiet.2 ha

end Woven

end ScriptHost
