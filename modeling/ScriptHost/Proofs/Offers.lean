import ScriptHost.Application.Host
import ScriptHost.Proofs.Renewal
import ScriptHost.Proofs.Slots

/-!
# Installing functions

What is in the slots of an environment when functions of different names have been installed one
after the other (`laid_forM_install`): each has its slot if that was free, and all else is as it
was. Only the globals themselves, where they are a global table, may have new tables among them.
-/
namespace ScriptHost

open Script (Value Heap Eval)

/-- A function on offer: the name of its global table, its name there, and the object it is. -/
structure Offer where
  space : String
  name : String
  function : Nat
  deriving DecidableEq

namespace Offer

/-- What a function on offer is known by if it is not said otherwise. -/
def ident (o : Offer) : String :=
  o.space ++ "." ++ o.name

def descriptor (o : Offer) : FunctionDescriptor :=
  ⟨o.space, o.name, pure (.object o.function)⟩

@[simp] theorem space_descriptor (o : Offer) : o.descriptor.space = o.space := rfl

@[simp] theorem name_descriptor (o : Offer) : o.descriptor.name = o.name := rfl

@[simp] theorem bind_descriptor (o : Offer) : o.descriptor.bind = pure (.object o.function) := rfl

@[simp] theorem qualified_descriptor (o : Offer) : o.descriptor.qualified = o.ident := rfl

end Offer

namespace Op

section
variable {α : Type} {host : Responder} {home : Nat} {w : World}

/-! ### Fields of plain tables -/

/-- A piece of a script that asks nothing ends at once. -/
theorem evaluate_of_done {e : Eval α} {a : α} {h : Heap} (he : e w.scripts = .done (.value a h))
    (host : Responder) (home : Nat) :
    (evaluate host home e).outcome w = .ok a ∧
      (evaluate host home e).after w = { w with scripts := h } := by
  unfold evaluate
  rw [outcome_get_bind, after_get_bind, he]
  exact ⟨rfl, rfl⟩

theorem after_toHost (home : Nat) (v : Value) (w : World) : (toHost home v).after w = w := by
  cases v with
  | text b =>
    rw [toHost]
    cases Text.decode b <;> rfl
  | foreign p =>
    rw [toHost]
    split <;> rfl
  | _ => rfl

/-- A value of a script that the host takes for none. -/
def IsNone (v : Value) : Prop :=
  v = .nil ∨ v = .foreign absentPlace

instance (v : Value) : Decidable (IsNone v) :=
  inferInstanceAs (Decidable (_ ∨ _))

theorem toHost_eq_none_iff {v : Value} :
    (toHost home v).outcome w = .ok .none ↔ IsNone v := by
  unfold IsNone
  cases v with
  | nil => exact iff_of_true rfl (.inl rfl)
  | text b =>
    refine iff_of_false (fun h => ?_) (by simp)
    rw [toHost] at h
    cases hd : Text.decode b <;> rw [hd] at h <;> cases h
  | foreign p =>
    rw [toHost]
    split
    · next hp => exact iff_of_true rfl (.inr (congrArg Value.foreign hp))
    · next hp => exact iff_of_false nofun (by simpa using hp)
  | _ => exact iff_of_false nofun (by simp)

theorem eq_table_of_toHost {v : Value} {home' t : Nat}
    (h : (toHost home v).outcome w = .ok (.script home' (.table t))) : v = .table t := by
  cases v with
  | text b =>
    rw [toHost] at h
    cases hd : Text.decode b <;> rw [hd] at h <;> cases h
  | foreign p =>
    rw [toHost] at h
    split at h <;> cases h
  | table t' =>
    cases h
    rfl
  | _ => cases h

/-- An object that scripts are given as one. -/
def Foreign (w : World) (p : Nat) : Prop :=
  match w.objectAt p with
  | .absent | .bytes _ => False
  | _ => True

theorem toScript_of_foreign {p : Nat} (hp : Foreign w p) (home : Nat) :
    (toScript home (.object p)).outcome w = .ok (.foreign p) ∧
      (toScript home (.object p)).after w = w := by
  unfold Foreign at hp
  have ho : (object p).outcome w = .ok (w.objectAt p) ∧ (object p).after w = w := ⟨rfl, rfl⟩
  rw [toScript, outcome_bind_of_ok ho.1, after_bind_of_ok ho.1, ho.2]
  cases hw : w.objectAt p with
  | absent | bytes b =>
    rw [hw] at hp
    exact hp.elim
  | _ => exact ⟨rfl, rfl⟩

theorem foreign_of_callable {p : Nat} (hp : isCallableObject w p) : Foreign w p := by
  unfold isCallableObject at hp
  unfold Foreign
  split at hp
  all_goals simp_all

theorem exists_siteOf (home : Nat) (w : World) :
    ∃ site, (siteOf home).outcome w = .ok site ∧ (siteOf home).after w = w :=
  ⟨_, rfl, rfl⟩

section
variable {t : Nat} (ht : w.scripts.Plain t)
include ht

theorem getField_of_plain (host : Responder) (home : Nat) (name : String) :
    (getField host home (.table t) name).outcome w =
        (toHost home (w.scripts.rawGet t (.ofString name))).outcome w ∧
      (getField host home (.table t) name).after w = w := by
  obtain ⟨site, hso, hsa⟩ := exists_siteOf home w
  obtain ⟨ho, ha⟩ := evaluate_of_done
    (Script.index_of_plain ht site.context (.ofString name)) host home
  rw [getField, outcome_bind_of_ok hso, after_bind_of_ok hso, hsa, outcome_bind_of_ok ho,
    after_bind_of_ok ho, ha]
  exact ⟨rfl, after_toHost home _ w⟩

theorem setField_of_plain {d : Datum} {v : Value}
    (hd : (toScript home d).outcome w = .ok v ∧ (toScript home d).after w = w)
    (host : Responder) (name : String) :
    (setField host home (.table t) name d).outcome w = .ok () ∧
      (setField host home (.table t) name d).after w =
        { w with scripts := w.scripts.rawSet t (.ofString name) v } := by
  obtain ⟨site, hso, hsa⟩ := exists_siteOf home w
  rw [setField, outcome_bind_of_ok hd.1, after_bind_of_ok hd.1, hd.2, outcome_bind_of_ok hso,
    after_bind_of_ok hso, hsa]
  exact evaluate_of_done (Script.setIndex_of_plain ht site.context name v) host home

end

/-! ### Global tables -/

/-- The globals of an environment. -/
def globalsAt (w : World) (home : Nat) : Nat :=
  (w.scripts.environment home).globals

/-- How the global table of a name is come by: it is there, or it is made. -/
inductive Comes (w : World) (home : Nat) (space : String) (t : Nat) : World → Prop
  | found (ht : w.scripts.rawGet (globalsAt w home) (.ofString space) = .table t) :
    Comes w home space t w
  | made (hn : ∀ t, w.scripts.rawGet (globalsAt w home) (.ofString space) ≠ .table t)
    (ht : t = w.scripts.tables.size) : Comes w home space t
      { w with scripts := w.scripts.withSpace (globalsAt w home) home space }

section
variable (hp : w.scripts.Plain (globalsAt w home))
include hp

theorem getGlobal_of_plain (host : Responder) (name : String) :
    (getGlobal host home name).outcome w =
        (toHost home (w.scripts.rawGet (globalsAt w home) (.ofString name))).outcome w ∧
      (getGlobal host home name).after w = w :=
  getField_of_plain hp host home name

theorem setGlobal_of_plain {d : Datum} {v : Value}
    (hd : (toScript home d).outcome w = .ok v ∧ (toScript home d).after w = w)
    (host : Responder) (name : String) :
    (setGlobal host home name d).outcome w = .ok () ∧
      (setGlobal host home name d).after w =
        { w with scripts := w.scripts.rawSet (globalsAt w home) (.ofString name) v } := by
  have hg : (globalsOf home).outcome w = .ok (.table (globalsAt w home)) ∧
    (globalsOf home).after w = w := ⟨rfl, rfl⟩
  rw [setGlobal, outcome_bind_of_ok hg.1, after_bind_of_ok hg.1, hg.2]
  exact setField_of_plain hp hd host name

end

/-- A new global table of a name. -/
theorem makeSpace_of_spaced (hs : w.scripts.Spaced (globalsAt w home)) (host : Responder)
    (space : String) :
    let m : Op Value := do
      let t ← newTable (.empty home)
      setGlobal host home space (.script home (.table t))
      return .table t
    m.outcome w = .ok (.table w.scripts.tables.size) ∧
      m.after w = { w with scripts := w.scripts.withSpace (globalsAt w home) home space } := by
  let w' : World := { w with scripts := w.scripts.addTable (.empty home) }
  have hp : w'.scripts.Plain (globalsAt w' home) := hs.globals.addTable _
  have hv : (toScript home (.script home (.table w.scripts.tables.size))).outcome w' =
      .ok (.table w.scripts.tables.size) ∧
      (toScript home (.script home (.table w.scripts.tables.size))).after w' = w' := by
    simp only [toScript, if_true]
    exact ⟨rfl, rfl⟩
  obtain ⟨hso, hsa⟩ := setGlobal_of_plain hp hv host space
  have hno : (newTable (.empty home)).outcome w = .ok w.scripts.tables.size := rfl
  have hna : (newTable (.empty home)).after w = w' := rfl
  intro m
  rw [outcome_bind_of_ok hno, hna, outcome_bind_of_ok hso, after_bind_of_ok hno, hna,
    after_bind_of_ok hso, hsa]
  exact ⟨rfl, rfl⟩

theorem comes_of_spaceTable (hs : w.scripts.Spaced (globalsAt w home)) {space : String} {v : Value}
    (ho : (spaceTable host home space).outcome w = .ok v) :
    ∃ t, v = .table t ∧ Comes w home space t ((spaceTable host home space).after w) := by
  obtain ⟨hgo, hga⟩ := getGlobal_of_plain hs.globals host space
  obtain ⟨d, hd, ho, ha⟩ := exists_of_bind_ok ho
  rw [spaceTable, ha, hga]
  rw [hga] at ho
  rw [hgo] at hd
  revert ho
  split
  · next home' t =>
    intro ho
    cases ho
    exact ⟨t, rfl, .found (eq_table_of_toHost hd)⟩
  · next hn =>
    have hn' (t : Nat) : w.scripts.rawGet (globalsAt w home) (.ofString space) ≠ .table t := by
      intro ht
      rw [ht] at hd
      cases hd
      exact hn _ _ rfl
    obtain ⟨hmo, hma⟩ := makeSpace_of_spaced hs host space
    rw [hmo, hma]
    exact fun ho => ⟨_, (Except.ok.inj ho).symm, .made hn' rfl⟩

namespace Comes

variable {space : String} {t : Nat} {w₁ : World} (hc : Comes w home space t w₁)
include hc

theorem globalsAt_eq : globalsAt w₁ home = globalsAt w home := by
  cases hc <;> rfl

variable (hs : w.scripts.Spaced (globalsAt w home))
include hs

theorem spaced : w₁.scripts.Spaced (globalsAt w home) := by
  cases hc with
  | found => exact hs
  | made => exact hs.withSpace home space

theorem rawGet_eq : w₁.scripts.rawGet (globalsAt w home) (.ofString space) = .table t := by
  cases hc with
  | found ht => exact ht
  | made hn ht => rw [Heap.rawGet_withSpace hs.globals.lt, if_pos rfl, ht]

end Comes

/-! ### Installing a function -/

/-- How a function is installed: what is in its slot stays, or the function is put there. -/
inductive Settles (w : World) (home : Nat) (o : Offer) : World → Prop
  | skipped {t : Nat} {w₁ : World} (hc : Comes w home o.space t w₁)
    (hn : ¬ IsNone (w₁.scripts.rawGet t (.ofString o.name))) {b : FunctionBooks}
    (hb : b.installed = w.functionBooks.installed) (l : Array LogEntry) :
    Settles w home o { w₁ with functionBooks := b, log := l }
  | installed {t : Nat} {w₁ : World} (hc : Comes w home o.space t w₁)
    (hn : IsNone (w₁.scripts.rawGet t (.ofString o.name))) {b : FunctionBooks}
    (hb : b.installed = w.functionBooks.installed ++ [o.ident]) (l : Array LogEntry) :
    Settles w home o { w₁ with
      scripts := w₁.scripts.rawSet t (.ofString o.name) (.foreign o.function)
      functionBooks := b
      log := l }

theorem settles_install (hs : w.scripts.Spaced (globalsAt w home)) {o : Offer}
    (hf : Foreign w o.function) (he : (install host home o.descriptor).Ends w) :
    Settles w home o ((install host home o.descriptor).after w) := by
  obtain ⟨b, ho⟩ := ends_iff.mp he
  unfold install at ho ⊢
  simp only [Offer.space_descriptor, Offer.name_descriptor, Offer.bind_descriptor,
    Offer.qualified_descriptor] at ho ⊢
  obtain ⟨v, hv, ho, ha⟩ := exists_of_bind_ok ho
  obtain ⟨t, rfl, hc⟩ := comes_of_spaceTable hs hv
  rw [ha]
  generalize (spaceTable host home o.space).after w = w₁ at hc ho ⊢
  have hp : w₁.scripts.Plain t := (hc.spaced hs).tables (hc.rawGet_eq hs)
  have hf₁ : Foreign w₁ o.function := by
    cases hc <;> exact hf
  have hb : w₁.functionBooks = w.functionBooks := by
    cases hc <;> rfl
  obtain ⟨hgo, hga⟩ := getField_of_plain hp host home o.name
  obtain ⟨d, hd, -, ha⟩ := exists_of_bind_ok ho
  have hn : d = .none ↔ IsNone (w₁.scripts.rawGet t (.ofString o.name)) := by
    rw [← toHost_eq_none_iff, ← hgo, hd]
    exact ⟨congrArg _, Except.ok.inj⟩
  rw [ha, hga]
  by_cases hd' : d = .none
  · obtain ⟨hfo, hfa⟩ := perform_of_result
      (show (pure (.object o.function) : Program Datum).result? = _ from rfl) host w₁
    obtain ⟨hso, hsa⟩ := setField_of_plain hp (toScript_of_foreign hf₁ home) host o.name
    rw [if_neg (by simp [hd']), after_bind_of_ok hfo, hfa, after_bind_of_ok hso, hsa]
    exact .installed hc (hn.mp hd') (congrArg (fun b => b.installed ++ [o.ident]) hb) _
  · rw [if_pos (by simpa using hd')]
    have hb' : w₁.functionBooks.installed = w.functionBooks.installed := by rw [hb]
    exact .skipped (b := { w₁.functionBooks with
      skipped := w₁.functionBooks.skipped ++ [o.ident] }) hc (fun h => hd' (hn.mpr h)) hb' _

end

/-! ### Installing one function after another -/

/-- What is in the slots of an environment that was `base` when some functions have been installed
and some names have been those of global tables. -/
structure Laid (base : Heap) (home g : Nat) (spaces : List String) (done : List Offer)
    (w : World) : Prop where
  globals : globalsAt w home = g
  spaced : w.scripts.Spaced g
  loops : ∀ s, w.scripts.Loops g s ↔ base.Loops g s
  tables : ∀ s ∈ spaces, ∃ t, w.scripts.rawGet g (.ofString s) = .table t
  /-- A slot is as it was, or has a function, or is a global that has become a table. -/
  origin : ∀ s x, w.scripts.slot g s x = base.slot g s x ∨
    (∃ o ∈ done, o.space = s ∧ o.name = x ∧ w.scripts.slot g s x = .foreign o.function) ∨
    base.Loops g s ∧ x ∈ spaces ∧ ∃ t, w.scripts.slot g s x = .table t
  held : ∀ o ∈ done, IsNone (base.slot g o.space o.name) →
    w.scripts.slot g o.space o.name = .foreign o.function ∨
      base.Loops g o.space ∧ o.name ∈ spaces
  listed : ∀ q ∈ w.functionBooks.installed, ∃ o ∈ done, q = o.ident ∧
    IsNone (base.slot g o.space o.name)

section
variable {base : Heap} {home g : Nat} {spaces : List String} {done : List Offer} {w w₁ : World}

theorem isNone_of_table {t : Nat} : ¬ IsNone (.table t) := by
  simp [IsNone]

/-- Nothing has been installed yet. -/
theorem Laid.start (hg : globalsAt w home = g) (hs : w.scripts.Spaced g)
    (hb : w.functionBooks.installed = []) : Laid w.scripts home g [] [] w where
  globals := hg
  spaced := hs
  loops _ := Iff.rfl
  tables _ := nofun
  origin _ _ := .inl rfl
  held _ := nofun
  listed q hq := by
    rw [hb] at hq
    cases hq

namespace Comes

variable {space : String} {t : Nat} (hc : Comes w home space t w₁)
  (hs : w.scripts.Spaced (globalsAt w home))
include hc hs

/-- Where a global table is come by, no slot changes but those of the globals themselves: one may
become the table. -/
theorem slot_eq (s x : String) :
    w₁.scripts.slot (globalsAt w home) s x = w.scripts.slot (globalsAt w home) s x ∨
      w.scripts.Loops (globalsAt w home) s ∧ x = space ∧
        w₁.scripts.slot (globalsAt w home) s x = .table t := by
  cases hc with
  | found => exact .inl rfl
  | made hn ht =>
    rw [hs.slot_withSpace hn]
    split
    · next hl => exact .inr ⟨hl.1, hl.2, by rw [ht]⟩
    · exact .inl rfl

theorem rawGet_of_table {s : String} {t' : Nat}
    (ht' : w.scripts.rawGet (globalsAt w home) (.ofString s) = .table t') :
    w₁.scripts.rawGet (globalsAt w home) (.ofString s) = .table t' := by
  cases hc with
  | found => exact ht'
  | made hn ht =>
    have hne : s ≠ space := fun he => hn t' (he ▸ ht')
    rw [Heap.rawGet_withSpace hs.globals.lt, if_neg hne]
    exact ht'

theorem loops_iff (s : String) :
    w₁.scripts.Loops (globalsAt w home) s ↔ w.scripts.Loops (globalsAt w home) s := by
  cases hc with
  | found => exact Iff.rfl
  | made hn ht =>
    unfold Heap.Loops
    rw [Heap.rawGet_withSpace hs.globals.lt]
    split
    · next he =>
      subst he
      refine iff_of_false (fun he => ?_) (hn _)
      exact Nat.ne_of_gt hs.globals.lt (Value.table.inj he)
    · exact Iff.rfl

end Comes

namespace Laid

/-- One more name is that of a global table. -/
theorem comes (h : Laid base home g spaces done w) {space : String} {t : Nat}
    (hc : Comes w home space t w₁) : Laid base home g (spaces ++ [space]) done w₁ := by
  obtain rfl := h.globals
  have hs := h.spaced
  have hb : w₁.functionBooks = w.functionBooks := by
    cases hc <;> rfl
  exact
    { globals := hc.globalsAt_eq
      spaced := hc.spaced hs
      loops := fun s => (hc.loops_iff hs s).trans (h.loops s)
      tables := fun s hm => by
        rcases List.mem_append.mp hm with hm | hm
        · obtain ⟨t', ht'⟩ := h.tables s hm
          exact ⟨t', hc.rawGet_of_table hs ht'⟩
        · exact ⟨t, List.mem_singleton.mp hm ▸ hc.rawGet_eq hs⟩
      origin := fun s x => by
        rcases hc.slot_eq hs s x with he | ⟨hl, rfl, he⟩
        · rw [he]
          exact (h.origin s x).imp_right (.imp_right fun ⟨hl, hm, ht⟩ =>
            ⟨hl, List.mem_append_left _ hm, ht⟩)
        · exact .inr (.inr ⟨(h.loops s).mp hl, by simp, t, he⟩)
      held := fun o ho hn => by
        rcases hc.slot_eq hs o.space o.name with he | ⟨hl, rfl, -⟩
        · rw [he]
          exact (h.held o ho hn).imp_right fun ⟨hl, hm⟩ => ⟨hl, List.mem_append_left _ hm⟩
        · exact .inr ⟨(h.loops _).mp hl, by simp⟩
      listed := hb ▸ h.listed }

/-- A slot that is not free was not free before, or became a table. -/
theorem of_not_isNone (h : Laid base home g spaces done w) {o : Offer}
    (ho : ∀ o' ∈ done, ¬ (o'.space = o.space ∧ o'.name = o.name))
    (hn : ¬ IsNone (w.scripts.slot g o.space o.name)) :
    ¬ IsNone (base.slot g o.space o.name) ∨ base.Loops g o.space ∧ o.name ∈ spaces := by
  rcases h.origin o.space o.name with he | ⟨o', ho', hs, hx, -⟩ | ⟨hl, hm, -⟩
  · exact .inl (he ▸ hn)
  · exact absurd ⟨hs, hx⟩ (ho o' ho')
  · exact .inr ⟨hl, hm⟩

/-- A slot that is free was free before. -/
theorem of_isNone (h : Laid base home g spaces done w) {o : Offer}
    (ho : ∀ o' ∈ done, ¬ (o'.space = o.space ∧ o'.name = o.name))
    (hn : IsNone (w.scripts.slot g o.space o.name)) : IsNone (base.slot g o.space o.name) := by
  rcases h.origin o.space o.name with he | ⟨o', ho', hs, hx, -⟩ | ⟨-, -, t, ht⟩
  · exact he ▸ hn
  · exact absurd ⟨hs, hx⟩ (ho o' ho')
  · exact absurd (ht ▸ hn) isNone_of_table

/-- One more function is left out: its slot is not free. -/
theorem skipped (h : Laid base home g spaces done w) {o : Offer}
    (ho : ∀ o' ∈ done, ¬ (o'.space = o.space ∧ o'.name = o.name))
    (hn : ¬ IsNone (w.scripts.slot g o.space o.name)) {b : FunctionBooks}
    (hb : b.installed = w.functionBooks.installed) (l : Array LogEntry) :
    Laid base home g spaces (done ++ [o]) { w with functionBooks := b, log := l } :=
  { globals := h.globals
    spaced := h.spaced
    loops := h.loops
    tables := h.tables
    origin := fun s x => (h.origin s x).imp_right (.imp_left fun ⟨o', ho', hr⟩ =>
      ⟨o', List.mem_append_left _ ho', hr⟩)
    held := fun o' ho' hn' => by
      rcases List.mem_append.mp ho' with ho' | ho'
      · exact h.held o' ho' hn'
      · obtain rfl := List.mem_singleton.mp ho'
        exact .inr ((h.of_not_isNone ho hn).resolve_left (not_not.mpr hn'))
    listed := fun q hq => by
      obtain ⟨o', ho', hr⟩ := h.listed q (hb ▸ hq)
      exact ⟨o', List.mem_append_left _ ho', hr⟩ }

/-- One more function is put into its slot, which is free. -/
theorem installed (h : Laid base home g spaces done w) {o : Offer}
    (ho : ∀ o' ∈ done, ¬ (o'.space = o.space ∧ o'.name = o.name)) {t : Nat}
    (ht : w.scripts.rawGet g (.ofString o.space) = .table t)
    (hn : IsNone (w.scripts.slot g o.space o.name)) {b : FunctionBooks}
    (hb : b.installed = w.functionBooks.installed ++ [o.ident]) (l : Array LogEntry) :
    Laid base home g spaces (done ++ [o])
      { w with
        scripts := w.scripts.rawSet t (.ofString o.name) (.foreign o.function)
        functionBooks := b
        log := l } := by
  have hf := h.of_isNone ho hn
  have hn' : ∀ t', w.scripts.slot g o.space o.name ≠ .table t' :=
    fun t' he => isNone_of_table (he ▸ hn)
  have hv : ∀ t', Value.foreign o.function ≠ .table t' := nofun
  have hslot := h.spaced.slot_setField ht hn' hv
  exact
    { globals := h.globals
      spaced := h.spaced.setField ht hv
      loops := fun s => (h.spaced.rawGet_setField_iff ht hn' hv s _).trans (h.loops s)
      tables := fun s hm => (h.tables s hm).imp fun t' =>
        (h.spaced.rawGet_setField_iff ht hn' hv s t').mpr
      origin := fun s x => by
        rw [hslot s x]
        split
        · next he => exact .inr (.inl ⟨o, by simp, he.1.symm, he.2.symm, rfl⟩)
        · exact (h.origin s x).imp_right (.imp_left fun ⟨o', ho', hr⟩ =>
            ⟨o', List.mem_append_left _ ho', hr⟩)
      held := fun o' ho' hn' => by
        rw [hslot]
        rcases List.mem_append.mp ho' with ho' | ho'
        · rw [if_neg (ho o' ho')]
          exact h.held o' ho' hn'
        · obtain rfl := List.mem_singleton.mp ho'
          exact .inl (if_pos ⟨rfl, rfl⟩)
      listed := fun q hq => by
        rw [hb] at hq
        rcases List.mem_append.mp hq with hq | hq
        · obtain ⟨o', ho', hr⟩ := h.listed q hq
          exact ⟨o', List.mem_append_left _ ho', hr⟩
        · exact ⟨o, by simp, List.mem_singleton.mp hq, hf⟩ }

/-- One more function is installed, or left out. -/
theorem settles (h : Laid base home g spaces done w) {o : Offer}
    (ho : ∀ o' ∈ done, ¬ (o'.space = o.space ∧ o'.name = o.name)) {w' : World}
    (hw : Settles w home o w') : Laid base home g (spaces ++ [o.space]) (done ++ [o]) w' := by
  obtain rfl := h.globals
  cases hw with
  | @skipped t w₁ hc hn b hb l =>
    rw [← Heap.slot_of_table (hc.rawGet_eq h.spaced)] at hn
    have hb' : b.installed = w₁.functionBooks.installed := by
      cases hc <;> exact hb
    exact (h.comes hc).skipped ho hn hb' l
  | @installed t w₁ hc hn b hb l =>
    have ht := hc.rawGet_eq h.spaced
    rw [← Heap.slot_of_table ht] at hn
    have hb' : b.installed = w₁.functionBooks.installed ++ [o.ident] := by
      cases hc <;> exact hb
    exact (h.comes hc).installed ho ht hn hb' l

/-- A slot that was free has a function in the end iff the function was installed there, the table
is no global that gives way, and the slot is no global that gives way or has become a table. -/
theorem slot_iff (h : Laid base home g spaces done w) {listen : String} {l : Nat} {s x : String}
    {f : Nat} (hn : IsNone (base.slot g s x)) (hf : f ≠ absentPlace) (hl : f ≠ l) :
    (w.scripts.rawSet g (.ofString listen) (.foreign l)).slot g s x = .foreign f ↔
      ⟨s, x, f⟩ ∈ done ∧ s ≠ listen ∧ (base.Loops g s → x ≠ listen ∧ x ∉ spaces) := by
  have hv : ∀ t, Value.foreign l ≠ .table t := nofun
  rw [h.spaced.slot_setGlobal hv]
  split
  · next he => exact iff_of_false (fun hv => by cases hv) fun h => h.2.1 he
  · next he =>
    split
    · next hx =>
      exact iff_of_false (fun h => hl (Value.foreign.inj h).symm)
        fun h' => (h'.2.2 ((h.loops s).mp hx.1)).1 hx.2
    · next hx =>
      refine ⟨fun hs => ⟨?_, he, fun hb =>
        ⟨fun he => hx ⟨(h.loops s).mpr hb, he⟩, fun hm => ?_⟩⟩, fun ⟨hd, _, hb⟩ => ?_⟩
      · rcases h.origin s x with ho | ⟨o, ho, rfl, rfl, hv⟩ | ⟨-, -, t, ht⟩
        · rw [← ho, hs] at hn
          exact absurd (Value.foreign.inj (hn.resolve_left nofun)) hf
        · obtain rfl := Value.foreign.inj (hs.symm.trans hv)
          exact ho
        · cases ht.symm.trans hs
      · obtain ⟨t, ht⟩ := h.tables x hm
        rw [Heap.slot_of_table ((h.loops s).mpr hb), ht] at hs
        cases hs
      · exact (h.held _ hd hn).resolve_right fun ⟨hb', hm⟩ => (hb hb').2 hm

end Laid

/-- Installing a function is nothing to objects and to the session. -/
theorem rest_of_settles {o : Offer} {w' : World} (hw : Settles w home o w') :
    w'.objects = w.objects ∧ w'.session = w.session := by
  cases hw with
  | skipped hc => cases hc <;> exact ⟨rfl, rfl⟩
  | installed hc => cases hc <;> exact ⟨rfl, rfl⟩

/-- Functions of different names are installed one after the other. -/
theorem laid_forM_install (host : Responder) (os : List Offer)
    (h : Laid base home g spaces done w)
    (hf : ∀ o ∈ os, Foreign w o.function)
    (ho : (done ++ os).Pairwise fun o o' => ¬ (o.space = o'.space ∧ o.name = o'.name))
    (he : ((os.map Offer.descriptor).forM fun d => discard (install host home d)).Ends w) :
    let after := ((os.map Offer.descriptor).forM fun d => discard (install host home d)).after w
    Laid base home g (spaces ++ os.map Offer.space) (done ++ os) after ∧
      after.objects = w.objects ∧ after.session = w.session := by
  induction os generalizing spaces done w with
  | nil => exact ⟨by simpa using h, rfl, rfl⟩
  | cons o os ih =>
    intro after
    obtain ⟨_, he⟩ := ends_iff.mp he
    obtain ⟨_, hi, he, ha⟩ :=
      exists_of_bind_ok (m := discard (install host home o.descriptor)) he
    have hi : (install host home o.descriptor).Ends w :=
      ends_discard_iff.mp (ends_iff.mpr ⟨_, hi⟩)
    have ha : after = _ := ha
    rw [ha]
    rw [after_discard] at he ⊢
    have hs := settles_install (h.globals ▸ h.spaced) (hf o List.mem_cons_self) hi
    generalize (install host home o.descriptor).after w = w₁ at hs he ⊢
    obtain ⟨hobj, hses⟩ := rest_of_settles hs
    have hdone : ∀ o' ∈ done, ¬ (o'.space = o.space ∧ o'.name = o.name) := fun o' ho' =>
      (List.pairwise_append.mp ho).2.2 o' ho' o List.mem_cons_self
    have hf₁ : ∀ o' ∈ os, Foreign w₁ o'.function := fun o' ho' => by
      simpa only [Foreign, World.objectAt, hobj] using hf o' (List.mem_cons_of_mem _ ho')
    have hrest := ih (h.settles hdone hs) hf₁ (by simpa using ho) (ends_iff.mpr ⟨_, he⟩)
    simpa [hobj, hses] using hrest

end

end Op

end ScriptHost
