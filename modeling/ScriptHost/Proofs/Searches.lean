import ScriptHost.Proofs.Outcome
import ScriptHost.Proofs.Paths
import ScriptHost.Session.Lifecycle

/-!
# What a search leads to

A search takes its steps one after another, and breaks off iff it asks for a path that is too long
(`isOk_search_iff`). What it gives goes on from where it begins by names that fit the pattern
(`fits_of_mem_search`).
-/
namespace ScriptHost.Files

/-! ### Names in a tree -/

namespace Node

/-- All entries at any depth have names of a kind. -/
def all (P : String → Bool) : Node → Bool
  | .file _ => true
  | .folder es => go es
where
  go : List (String × Node) → Bool
    | [] => true
    | (x, n) :: rest => P x && n.all P && go rest

end Node

section
variable {P : String → Bool}

theorem Node.all_of_mem {n m : Node} (h : n.all P) {x : String} (hm : (x, m) ∈ n.entries) :
    P x ∧ m.all P := by
  obtain c | es := n
  · cases hm
  · replace h : Node.all.go P es := h
    replace hm : (x, m) ∈ es := hm
    induction es with
    | nil => cases hm
    | cons e rest ih =>
      obtain ⟨y, m'⟩ := e
      simp only [Node.all.go, Bool.and_eq_true] at h
      rcases List.mem_cons.mp hm with he | hm
      · cases he
        exact h.1
      · exact ih h.2 hm

theorem Node.all_get? {n m : Node} {names : List String} (h : n.all P)
    (hg : n.get? names = some m) : m.all P := by
  induction names generalizing n with
  | nil =>
    cases hg
    exact h
  | cons x rest ih =>
    unfold get? at hg
    split at hg
    · next m' hl =>
      obtain ⟨front, back, he, -⟩ := List.lookup_eq_some_iff.mp hl
      exact ih (all_of_mem h (he ▸ List.mem_append_right front List.mem_cons_self)).2 hg
    · cases hg

theorem all_of_look {root n : Node} {cwd p : Path} (h : root.all P)
    (hl : look root cwd p = .ok (some n)) : n.all P := by
  unfold look at hl
  split at hl
  · cases hl
  · split at hl
    · next ho =>
      cases hl
      exact Node.all_get? h (Node.locate_ok ho).2
    · cases hl
    · cases hl

mutual

/-- The folders below a folder are reached by names of entries. -/
theorem exists_of_mem_foldersBelow {p q : Path} {n : Node} (hn : n.all P)
    (h : q ∈ foldersBelow p n) : ∃ names, q = p.under names ∧ ∀ x ∈ names, P x := by
  match n with
  | .file _ => cases h
  | .folder es =>
    rw [foldersBelow, List.mem_cons] at h
    rcases h with rfl | h
    · exact ⟨[], (Path.under_nil q).symm, by simp⟩
    · exact exists_of_mem_foldersBelow_go hn h

theorem exists_of_mem_foldersBelow_go {p q : Path} {es : List (String × Node)}
    (hn : Node.all.go P es) (h : q ∈ foldersBelow.go p es) :
    ∃ names, q = p.under names ∧ ∀ x ∈ names, P x := by
  match es with
  | [] => cases h
  | (x, n) :: rest =>
    simp only [Node.all.go, Bool.and_eq_true] at hn
    rw [foldersBelow.go, List.mem_append] at h
    rcases h with h | h
    · obtain ⟨names, rfl, hx⟩ := exists_of_mem_foldersBelow hn.1.2 h
      refine ⟨x :: names, by rw [Path.child_eq, Path.under_under]; rfl, ?_⟩
      simpa [hn.1.1] using hx
    · exact exists_of_mem_foldersBelow_go hn.2 h

end

end

/-! ### Step by step -/

namespace Step

/-- The path that a step asks for. -/
def asked : Step → Path → Path
  | .named x, p => p.child x
  | _, p => p

/-- Where a step leads to by what it has asked for. Except at the end it leads to folders only. -/
def leads (last : Bool) : Step → Path → Node → List Path
  | .deep, p, n => foldersBelow p n
  | .named x, p, n => if last || n.isFolder then [p.child x] else []
  | .fitting pattern, p, n => (n.entries.filter fun (x, m) =>
      (last || m.isFolder) && Pattern.accepts pattern x.toList).map fun (x, _) => p.child x
  | .stop, p, _ => [p]

/-- Takes out what several ways lead to, after a step that leads anywhere below. -/
def tidy : Step → List Path → List Path
  | .deep, ps => ps.eraseDups
  | _, ps => ps

theorem mem_tidy {s : Step} {ps : List Path} {q : Path} : q ∈ s.tidy ps ↔ q ∈ ps := by
  cases s <;> simp [tidy, List.mem_eraseDups]

end Step

/-- After a step the others are taken from all that it leads to. -/
theorem search_cons {s : Step} (hs : s ≠ .stop) (root : Node) (cwd : Path) (rest : List Step)
    (p : Path) : search root cwd (s :: rest) p = do
      match ← look root cwd (s.asked p) with
      | some n =>
        return s.tidy (← (s.leads rest.isEmpty p n).mapM (search root cwd rest)).flatten
      | none => return [] := by
  cases s with
  | stop => exact absurd rfl hs
  | deep =>
    rw [search]
    rfl
  | named x =>
    rw [search, Step.asked]
    refine congrArg (look root cwd (p.child x) >>= ·) (funext fun found => ?_)
    cases found with
    | none => rfl
    | some n =>
      simp only [Step.leads]
      split
      · rw [List.mapM_cons, List.mapM_nil]
        cases search root cwd rest (p.child x) with
        | error f => rfl
        | ok ps => exact congrArg Except.ok (List.append_nil ps).symm
      · rfl
  | fitting pattern =>
    rw [search]
    refine congrArg (look root cwd p >>= ·) (funext fun found => ?_)
    cases found with
    | none => rfl
    | some n => exact congrArg (Except.map List.flatten) List.mapM_map.symm

/-! ### When a search breaks off -/

section
variable {α β : Type} {f : α → Except Fault β}

theorem isOk_mapM_iff {xs : List α} : (xs.mapM f).isOk ↔ ∀ x ∈ xs, (f x).isOk := by
  induction xs with
  | nil => simp [Except.isOk, Except.toBool]; rfl
  | cons x rest ih =>
    rw [List.mapM_cons, List.forall_mem_cons, ← ih]
    cases f x with
    | error e => exact iff_of_false Bool.false_ne_true fun h => Bool.false_ne_true h.1
    | ok b =>
      cases rest.mapM f with
      | error e => exact iff_of_false Bool.false_ne_true fun h => Bool.false_ne_true h.2
      | ok bs => exact ⟨fun _ => ⟨rfl, rfl⟩, fun _ => rfl⟩

theorem exists_of_mem_mapM {xs : List α} {ys : List β} (h : xs.mapM f = .ok ys) {y : β}
    (hy : y ∈ ys) : ∃ x ∈ xs, f x = .ok y := by
  induction xs generalizing ys with
  | nil =>
    cases h
    cases hy
  | cons x rest ih =>
    rw [List.mapM_cons] at h
    obtain ⟨b, hx, h⟩ := exists_of_except_bind h
    obtain ⟨bs, hr, h⟩ := exists_of_except_bind h
    cases h
    rcases List.mem_cons.mp hy with rfl | hy
    · exact ⟨x, List.mem_cons_self, hx⟩
    · obtain ⟨x', hm, hx'⟩ := ih hr hy
      exact ⟨x', List.mem_cons_of_mem _ hm, hx'⟩

end

/-- No path is too long that steps ask for from a path. -/
def Clear (root : Node) (cwd : Path) : List Step → Path → Prop
  | [], _ | .stop :: _, _ => True
  | s :: rest, p => (look root cwd (s.asked p)).isOk ∧
      ∀ n, look root cwd (s.asked p) = .ok (some n) →
        ∀ m ∈ s.leads rest.isEmpty p n, Clear root cwd rest m

section
variable {root : Node} {cwd : Path}

theorem clear_cons {s : Step} (hs : s ≠ .stop) {rest : List Step} {p : Path} :
    Clear root cwd (s :: rest) p ↔ (look root cwd (s.asked p)).isOk ∧
      ∀ n, look root cwd (s.asked p) = .ok (some n) →
        ∀ m ∈ s.leads rest.isEmpty p n, Clear root cwd rest m := by
  cases s with
  | stop => exact absurd rfl hs
  | _ => rfl

/-- A search breaks off iff a path that it asks for is too long. -/
theorem isOk_search_iff {steps : List Step} {p : Path} :
    (search root cwd steps p).isOk ↔ Clear root cwd steps p := by
  induction steps generalizing p with
  | nil => exact ⟨fun _ => trivial, fun _ => rfl⟩
  | cons s rest ih =>
    by_cases hs : s = .stop
    · subst hs
      exact ⟨fun _ => trivial, fun _ => rfl⟩
    · rw [clear_cons hs, search_cons hs]
      cases look root cwd (s.asked p) with
      | error f => exact ⟨nofun, fun h => absurd h.1 nofun⟩
      | ok found =>
        cases found with
        | none => exact ⟨fun _ => ⟨rfl, nofun⟩, fun _ => rfl⟩
        | some n =>
          have hm : ((s.leads rest.isEmpty p n).mapM (search root cwd rest)).isOk ↔
              ∀ m ∈ s.leads rest.isEmpty p n, Clear root cwd rest m :=
            isOk_mapM_iff.trans (forall₂_congr fun _ _ => ih)
          refine Iff.trans ?_ (hm.trans ⟨fun h => ⟨rfl, fun _ he => ?_⟩, fun h => h.2 n rfl⟩)
          · change (List.mapM _ _ >>= fun qss => .ok (s.tidy qss.flatten) :
              Except Fault (List Path)).isOk ↔ _
            cases (s.leads rest.isEmpty p n).mapM (search root cwd rest) <;> rfl
          · cases he
            exact h

/-- What a search gives is given by the steps that follow the first, from where that leads to. -/
theorem exists_of_mem_search {s : Step} (hs : s ≠ .stop) {rest : List Step} {p q : Path}
    {ps : List Path} (h : search root cwd (s :: rest) p = .ok ps) (hq : q ∈ ps) :
    ∃ n, look root cwd (s.asked p) = .ok (some n) ∧
      ∃ m ∈ s.leads rest.isEmpty p n, ∃ qs, search root cwd rest m = .ok qs ∧ q ∈ qs := by
  rw [search_cons hs] at h
  obtain ⟨found, hl, h⟩ := exists_of_except_bind h
  cases found with
  | none =>
    cases h
    cases hq
  | some n =>
    obtain ⟨qss, hm, h⟩ := exists_of_except_bind h
    cases h
    rw [Step.mem_tidy, List.mem_flatten] at hq
    obtain ⟨qs, hqs, hq⟩ := hq
    obtain ⟨m, hmem, ho⟩ := exists_of_mem_mapM hm hqs
    exact ⟨n, hl, m, hmem, qs, ho, hq⟩

end

/-! ### What a search gives -/

section
variable {P : String → Bool}

/-- Names that a step leads by, where the names in the tree are of a kind. -/
def Step.Fits (P : String → Bool) : Step → List String → Prop
  | .deep, names => ∀ x ∈ names, P x
  | .named x, names => names = [x]
  | .fitting pattern, names => ∃ x, P x ∧ Pattern.accepts pattern x.toList ∧ names = [x]
  | .stop, names => names = []

/-- Names that steps lead by, one after another. -/
def Fits (P : String → Bool) : List Step → List String → Prop
  | [], names | .stop :: _, names => names = []
  | s :: rest, names => ∃ front back, names = front ++ back ∧ s.Fits P front ∧ Fits P rest back

theorem fits_cons {s : Step} (hs : s ≠ .stop) {rest : List Step} {names : List String} :
    Fits P (s :: rest) names ↔
      ∃ front back, names = front ++ back ∧ s.Fits P front ∧ Fits P rest back := by
  cases s with
  | stop => exact absurd rfl hs
  | _ => rfl

/-- A step leads on by names that fit it. -/
theorem fits_of_mem_leads {n : Node} (hn : n.all P) {last : Bool} {s : Step} {p q : Path}
    (hq : q ∈ s.leads last p n) : ∃ names, q = p.under names ∧ s.Fits P names := by
  cases s with
  | stop => exact ⟨[], (List.mem_singleton.mp hq).trans (Path.under_nil p).symm, rfl⟩
  | deep => exact exists_of_mem_foldersBelow hn hq
  | named x =>
    refine ⟨[x], ?_, rfl⟩
    simp only [Step.leads] at hq
    split at hq
    · exact List.mem_singleton.mp hq
    · cases hq
  | fitting pattern =>
    obtain ⟨⟨x, m⟩, hm, rfl⟩ := List.mem_map.mp hq
    obtain ⟨he, hf⟩ := List.mem_filter.mp hm
    rw [Bool.and_eq_true] at hf
    exact ⟨[x], rfl, x, (Node.all_of_mem hn he).1, hf.2, rfl⟩

/-- All that a search gives goes on from where it begins, by names that fit its steps. -/
theorem fits_of_mem_search {root : Node} {cwd : Path} (hr : root.all P) {steps : List Step}
    {p q : Path} {ps : List Path} (h : search root cwd steps p = .ok ps) (hq : q ∈ ps) :
    ∃ names, q = p.under names ∧ Fits P steps names := by
  induction steps generalizing p q ps with
  | nil =>
    cases h
    obtain rfl := List.mem_singleton.mp hq
    exact ⟨[], (Path.under_nil q).symm, rfl⟩
  | cons s rest ih =>
    by_cases hs : s = .stop
    · subst hs
      cases h
      obtain rfl := List.mem_singleton.mp hq
      exact ⟨[], (Path.under_nil q).symm, rfl⟩
    · obtain ⟨n, hn, m, hm, qs, ho, hq⟩ := exists_of_mem_search hs h hq
      obtain ⟨front, rfl, hf⟩ := fits_of_mem_leads (all_of_look hr hn) hm
      obtain ⟨back, rfl, hb⟩ := ih ho hq
      exact ⟨front ++ back, Path.under_under p front back,
        (fits_cons hs).mpr ⟨front, back, rfl, hf, hb⟩⟩

end

/-! ### Short names -/

/-- A name that is not too long. -/
def isShort (x : String) : Bool :=
  x.utf8ByteSize ≤ Node.nameLimit

theorem exists_of_follow {root : Node} {here names : List String}
    (h : root.follow here names = .error .nameTooLong) : ∃ x ∈ names, ¬ isShort x := by
  induction names generalizing here with
  | nil =>
    unfold Node.follow at h
    split at h <;> cases h
  | cons x rest ih =>
    unfold Node.follow at h
    split at h
    · split at h
      · next hx => exact ⟨x, List.mem_cons_self, by simpa [isShort] using hx⟩
      · obtain ⟨y, hy, hs⟩ : ∃ y ∈ rest, ¬ isShort y := by
          split at h
          · exact ih h
          · split at h
            · exact ih h
            · cases h
        exact ⟨y, List.mem_cons_of_mem _ hy, hs⟩
    · cases h
    · cases h

section
variable {root : Node} {cwd : Path}

/-- A path of short names can be looked up. -/
theorem isOk_look {p : Path} (hc : ∀ x ∈ cwd.parts, isShort x) (hp : ∀ x ∈ p.parts, isShort x) :
    (look root cwd p).isOk := by
  have hj : ∀ x ∈ (cwd.join p).parts, isShort x := by
    unfold Path.join
    split
    · exact hp
    · exact fun x hx => (List.mem_append.mp hx).elim (hc x) (hp x)
  unfold look
  split
  · rfl
  · split
    · rfl
    · next h =>
      obtain ⟨x, hx, hs⟩ := exists_of_follow h
      exact absurd (hj x hx) hs
    · rfl

/-- Where all names are short, a search does not break off. -/
theorem clear_of_short (hr : root.all isShort) (hc : ∀ x ∈ cwd.parts, isShort x)
    {steps : List Step} (hs : ∀ x, .named x ∈ steps → isShort x) {p : Path}
    (hp : ∀ x ∈ p.parts, isShort x) : Clear root cwd steps p := by
  have short {names : List String} (hn : ∀ x ∈ names, isShort x) {p : Path}
      (hp : ∀ x ∈ p.parts, isShort x) : ∀ x ∈ (p.under names).parts, isShort x :=
    fun x hx => (List.mem_append.mp hx).elim (hp x) (hn x)
  induction steps generalizing p with
  | nil => trivial
  | cons s rest ih =>
    by_cases he : s = .stop
    · subst he
      trivial
    · rw [clear_cons he]
      have hn {names : List String} (hf : s.Fits isShort names) : ∀ x ∈ names, isShort x := by
        cases s with
        | stop => exact absurd rfl he
        | deep => exact hf
        | named y =>
          rw [show names = [y] from hf]
          simpa using hs y List.mem_cons_self
        | fitting pattern =>
          obtain ⟨y, hy, -, rfl⟩ := hf
          simpa using hy
      refine ⟨?_, fun n hl m hm => ?_⟩
      · cases s with
        | named y => exact isOk_look hc (short (hn rfl) hp)
        | _ => exact isOk_look hc hp
      · obtain ⟨names, rfl, hf⟩ := fits_of_mem_leads (all_of_look hr hl) hm
        exact ih (fun x hx => hs x (List.mem_cons_of_mem _ hx)) (short (hn hf) hp)

end

/-! ### Steps that stay below -/

/-- Steps never lead above where they begin, from so many names below it. -/
def descends : Nat → List Step → Bool
  | _, [] | _, .stop :: _ => true
  | depth, .deep :: rest => descends depth rest
  | depth, .named x :: rest =>
    if x = ".." then 0 < depth && descends (depth - 1) rest else descends (depth + 1) rest
  | depth, .fitting _ :: rest => descends (depth + 1) rest

theorem Path.foldl_step {names : List String} (h : ∀ x ∈ names, x ≠ "..") (t : Turn) :
    names.foldl Turn.step t = ⟨t.up, t.down ++ names⟩ := by
  induction names generalizing t with
  | nil => simp
  | cons x rest ih =>
    rw [List.foldl_cons, Turn.step, if_pos (h x List.mem_cons_self),
      ih (fun y hy => h y (List.mem_cons_of_mem _ hy)), List.append_assoc]
    rfl

/-- Names that fit such steps never lead up. The steps count a name less for each folder that a
search at any depth has gone down. -/
theorem up_of_descends {steps : List Step} {depth : Nat} {names : List String}
    (hd : descends depth steps) (hf : Fits isName steps names) {t : Path.Turn} (hu : t.up = 0)
    (ht : depth ≤ t.down.length) : (names.foldl Path.Turn.step t).up = 0 := by
  induction steps generalizing depth names t with
  | nil =>
    obtain rfl : names = [] := hf
    exact hu
  | cons s rest ih =>
    have one {x : String} (hx : x ≠ "..") {back : List String} (hd : descends (depth + 1) rest)
        (hb : Fits isName rest back) : (([x] ++ back).foldl Path.Turn.step t).up = 0 := by
      rw [List.foldl_append,
        Path.foldl_step (show ∀ y ∈ [x], y ≠ ".." by simpa using hx)]
      refine ih hd hb hu ?_
      rw [List.length_append]
      exact Nat.add_le_add_right ht 1
    cases s with
    | stop =>
      obtain rfl : names = [] := hf
      exact hu
    | deep =>
      obtain ⟨front, back, rfl, hn, hb⟩ := hf
      rw [List.foldl_append, Path.foldl_step fun x hx => ne_dots_of_isName (hn x hx)]
      refine ih hd hb hu ?_
      rw [List.length_append]
      exact Nat.le_add_right_of_le ht
    | named x =>
      obtain ⟨front, back, rfl, rfl, hb⟩ := hf
      rw [descends] at hd
      split at hd
      · next hx =>
        rw [Bool.and_eq_true, decide_eq_true_eq] at hd
        have hne : t.down ≠ [] := List.ne_nil_of_length_pos (Nat.lt_of_lt_of_le hd.1 ht)
        have hs : t.step x = { t with down := t.down.dropLast } := by
          rw [Path.Turn.step, if_neg (not_not.mpr hx), if_neg hne]
        rw [List.singleton_append, List.foldl_cons, hs]
        refine ih hd.2 hb hu ?_
        rw [List.length_dropLast]
        exact Nat.sub_le_sub_right ht 1
      · next hx => exact one hx hd hb
    | fitting pattern =>
      obtain ⟨front, back, rfl, ⟨x, hx, -, rfl⟩, hb⟩ := hf
      exact one (ne_dots_of_isName hx) hd hb

/-! ### Patterns -/

theorem isPattern_of_hasStars {cs : List Char} (h : hasStars cs) : Pattern.isPattern cs := by
  induction cs with
  | nil => cases h
  | cons c rest ih =>
    unfold hasStars at h
    split at h
    · next he =>
      obtain ⟨rfl, rfl⟩ := List.cons.inj he
      rfl
    · next he =>
      obtain ⟨rfl, rfl⟩ := List.cons.inj he
      exact (Bool.or_eq_true _ _).mpr (.inr (ih h))
    · next he => cases he

theorem ne_empty_of_isPart {x : String} (h : isPart x) : x ≠ "" := by
  simp only [isPart, Bool.and_eq_true, decide_eq_true_eq] at h
  exact h.1.1

/-- A part of a pattern is the name it looks for if it has no characters of patterns. -/
theorem Step.ofString_plain {x : String} (hx : x ≠ "") (h : Pattern.isPattern x.toList = false) :
    Step.ofString x = .ok (.named x) := by
  have hd : x.toList ≠ ['*', '*'] := fun e => by
    rw [e] at h
    cases h
  have hs : ¬ hasStars x.toList := fun e =>
    Bool.false_ne_true (h.symm.trans (isPattern_of_hasStars e))
  simp [Step.ofString, hx, hd, hs, h]

/-- Only where a part is empty a search stops. -/
theorem Step.ne_stop {x : String} {s : Step} (hx : x ≠ "") (h : Step.ofString x = .ok s) :
    s ≠ .stop := by
  rintro rfl
  simp only [Step.ofString] at h
  split at h
  · next he => exact hx (by simpa using he)
  · split at h
    · cases h
    · split at h
      · cases h
      · split at h <;> cases h

/-- A part of a pattern that only files of its own name fit. -/
def IsPlain (cs : List Char) : Prop :=
  isName (String.ofList cs) ∧ Pattern.isPattern cs = false

instance (cs : List Char) : Decidable (IsPlain cs) :=
  inferInstanceAs (Decidable (_ ∧ _))

/-- A search for a pattern is a step to any folder below and a step for each part. -/
theorem exists_of_searchSteps {pattern : String} {steps : List Step}
    (h : searchSteps pattern = .ok steps) : ∃ rest,
      (if pattern.toList.getLast? = some '/' then namesIn pattern.toList ++ [""]
        else namesIn pattern.toList).mapM Step.ofString = .ok rest ∧ steps = .deep :: rest := by
  unfold searchSteps at h
  split at h
  · cases h
  · obtain ⟨rest, hr, h⟩ := exists_of_except_bind h
    cases h
    exact ⟨rest, hr, rfl⟩

/-- The last step of a search looks for the last piece of its pattern, where that is plain. -/
theorem exists_of_searchSteps_plain {pattern : String} {steps : List Step}
    (h : searchSteps pattern = .ok steps) (hl : IsPlain (lastPiece pattern.toList)) :
    ∃ front, steps = front ++ [.named (String.ofList (lastPiece pattern.toList))] ∧
      .stop ∉ front := by
  obtain ⟨hn, hp⟩ := hl
  have hn' := isPart_of_isName hn
  simp only [isPart, Bool.and_eq_true, decide_eq_true_eq] at hn'
  have hne : lastPiece pattern.toList ≠ [] := fun e => hn'.1.1 (by rw [e])
  have hdot : lastPiece pattern.toList ≠ ['.'] := fun e => hn'.1.2 (by rw [e])
  have hslash : pattern.toList.getLast? ≠ some '/' := by
    intro e
    obtain ⟨front, hf⟩ := List.getLast?_eq_some_iff.mp e
    rw [hf, lastPiece, splitSlashes_append_slash, show splitSlashes [] = [[]] from rfl,
      List.getLastD_concat] at hne
    exact hne rfl
  obtain ⟨rest, hr, rfl⟩ := exists_of_searchSteps h
  obtain ⟨front, hf⟩ := namesIn_eq hne hdot
  rw [if_neg hslash, hf, List.mapM_append, List.mapM_cons, List.mapM_nil,
    Step.ofString_plain hn'.1.1 (by rwa [String.toList_ofList])] at hr
  obtain ⟨ss, hs, hr⟩ := exists_of_except_bind hr
  cases hr
  refine ⟨.deep :: ss, rfl, ?_⟩
  intro hm
  obtain ⟨x, hx, hx'⟩ :=
    exists_of_mem_mapM hs ((List.mem_cons.mp hm).resolve_left fun h => by cases h)
  have hmem : x ∈ namesIn pattern.toList := hf ▸ List.mem_append_left _ hx
  exact Step.ne_stop (ne_empty_of_isPart (isPart_of_mem_namesIn hmem)) hx' rfl

/-- The names that a search looks for are in its pattern. -/
theorem mem_namesIn_of_named_mem {pattern : String} {steps : List Step}
    (h : searchSteps pattern = .ok steps) {x : String} (hx : .named x ∈ steps) :
    x ∈ namesIn pattern.toList := by
  obtain ⟨rest, hr, rfl⟩ := exists_of_searchSteps h
  obtain ⟨y, hy, hs⟩ := exists_of_mem_mapM hr ((List.mem_cons.mp hx).resolve_left nofun)
  obtain ⟨hne, rfl⟩ : y ≠ "" ∧ y = x := by
    simp only [Step.ofString] at hs
    split at hs
    · cases hs
    · next hne =>
      refine ⟨by simpa using hne, ?_⟩
      split at hs
      · cases hs
      · split at hs
        · cases hs
        · split at hs <;> cases hs
          rfl
  split at hy
  · exact (List.mem_append.mp hy).resolve_right fun h => hne (List.mem_singleton.mp h)
  · exact hy

theorem isPart_of_fits {steps : List Step} (hs : ∀ x, .named x ∈ steps → isPart x)
    {names : List String} (h : Fits isName steps names) : ∀ x ∈ names, isPart x := by
  induction steps generalizing names with
  | nil =>
    obtain rfl : names = [] := h
    exact fun _ => nofun
  | cons s rest ih =>
    replace ih {names : List String} (h : Fits isName rest names) : ∀ x ∈ names, isPart x :=
      ih (fun x hx => hs x (List.mem_cons_of_mem _ hx)) h
    cases s with
    | stop =>
      obtain rfl : names = [] := h
      exact fun _ => nofun
    | deep =>
      obtain ⟨front, back, rfl, hf, hb⟩ := h
      exact fun x hx => (List.mem_append.mp hx).elim (fun h => isPart_of_isName (hf x h)) (ih hb x)
    | named y =>
      obtain ⟨front, back, rfl, rfl, hb⟩ := h
      have hy := hs y List.mem_cons_self
      exact fun x hx => (List.mem_cons.mp hx).elim (· ▸ hy) (ih hb x)
    | fitting pattern =>
      obtain ⟨front, back, rfl, ⟨y, hy, -, rfl⟩, hb⟩ := h
      exact fun x hx => (List.mem_cons.mp hx).elim (· ▸ isPart_of_isName hy) (ih hb x)

theorem exists_of_fits_concat {P : String → Bool} {front : List Step} (hs : .stop ∉ front)
    {x : String} {names : List String} (h : Fits P (front ++ [.named x]) names) :
    ∃ more, names = more ++ [x] := by
  induction front generalizing names with
  | nil =>
    obtain ⟨_, back, rfl, rfl, rfl⟩ := h
    exact ⟨[], rfl⟩
  | cons s rest ih =>
    rw [List.mem_cons, not_or] at hs
    obtain ⟨front, back, rfl, -, hb⟩ := (fits_cons (Ne.symm hs.1)).mp h
    obtain ⟨more, rfl⟩ := ih hs.2 hb
    exact ⟨front ++ more, (List.append_assoc ..).symm⟩

theorem mem_of_leastPath {ps : List Path} {p : Path} (h : leastPath ps = some p) : p ∈ ps := by
  induction ps with
  | nil => cases h
  | cons q rest ih =>
    rw [leastPath] at h
    split at h
    · next r hr =>
      split at h
      · cases h
        exact List.mem_cons_of_mem _ (ih hr)
      · cases h
        exact List.mem_cons_self
    · cases h
      exact List.mem_cons_self

end ScriptHost.Files

namespace ScriptHost.Op

open Files

variable {w : World}

/-- A path leads to a place at or below another. -/
def Within (cwd root p : Path) : Prop :=
  (cwd.resolve root).parts <+: (cwd.resolve p).parts

instance (cwd root p : Path) : Decidable (Within cwd root p) :=
  inferInstanceAs (Decidable (_ <+: _))

/-- What looking for a script of a name ends in. -/
theorem outcome_find (name : String) (w : World) : (find name).outcome w =
    match w.session.root with
    | none => .ok none
    | some root => do
      match ← look w.files w.cwd root with
      | some (.folder _) =>
        let steps ← searchSteps (name ++ w.session.extension)
        return leastPath (← search w.files w.cwd steps root)
      | _ => return none := by
  rw [find, outcome_get_bind]
  cases w.session.root with
  | none => rfl
  | some root =>
    refine (outcome_ofExcept_bind _ _ w).trans
      (congrArg (look w.files w.cwd root >>= ·) (funext fun found => ?_))
    obtain _ | _ | es := found
    · rfl
    · rfl
    · refine (outcome_ofExcept_bind _ _ w).trans
        (congrArg (searchSteps (name ++ w.session.extension) >>= ·) (funext fun steps => ?_))
      exact outcome_ofExcept_bind _ _ w

theorem exists_of_find {name : String} {p : Path} (h : (find name).outcome w = .ok (some p)) :
    ∃ root steps ps, w.session.root = some root ∧
      searchSteps (name ++ w.session.extension) = .ok steps ∧
      search w.files w.cwd steps root = .ok ps ∧ p ∈ ps := by
  rw [outcome_find] at h
  split at h
  · cases h
  · next root hr =>
    obtain ⟨found, -, h⟩ := exists_of_except_bind h
    obtain _ | _ | es := found
    · cases h
    · cases h
    · obtain ⟨steps, hs, h⟩ := exists_of_except_bind h
      obtain ⟨ps, hps, h⟩ := exists_of_except_bind h
      exact ⟨root, steps, ps, hr, hs, hps, mem_of_leastPath (Except.ok.inj h)⟩

/-- An operation changes nothing, or says something in the log and finds nothing. -/
def LooksOnly (m : Op (Option Path)) (w : World) : Prop :=
  m.after w = w ∨ ∃ l, m.after w = { w with log := l } ∧ m.outcome w = .ok none

theorem looksOnly_ofExcept_bind {α : Type} {k : α → Op (Option Path)} (x : Except Fault α)
    (h : ∀ a, LooksOnly (k a) w) : LooksOnly (ofExcept x >>= k) w := by
  cases x with
  | error f => exact .inl rfl
  | ok a => exact h a

theorem looksOnly_find (name : String) (w : World) : LooksOnly (find name) w := by
  show LooksOnly (get >>= _) w
  unfold LooksOnly
  rw [after_get_bind, outcome_get_bind]
  cases w.session.root with
  | none => exact .inr ⟨_, rfl, rfl⟩
  | some root =>
    refine looksOnly_ofExcept_bind _ fun found => ?_
    obtain _ | _ | es := found
    · exact .inr ⟨_, rfl, rfl⟩
    · exact .inr ⟨_, rfl, rfl⟩
    · refine looksOnly_ofExcept_bind _ fun steps => looksOnly_ofExcept_bind _ fun ps => ?_
      exact .inl rfl

theorem after_find_of_some {name : String} {p : Path}
    (h : (find name).outcome w = .ok (some p)) : (find name).after w = w :=
  (looksOnly_find name w).resolve_right fun ⟨_, _, ho⟩ => nomatch h.symm.trans ho

/-- Where a script lies that is found under a name: its path goes on from the folder of scripts by
names that fit the pattern the name is spliced into. It stays there iff what leads up leads down
again, which is so where the pattern never leads up, and it has the name that is asked for where
this has no meaning in patterns. The script that is loaded under the name is the one at this path. -/
theorem confined_find (ht : w.files.all isName) {name : String} {p : Path}
    (h : (find name).outcome w = .ok (some p)) :
    ∃ root steps names, w.session.root = some root ∧
      searchSteps (name ++ w.session.extension) = .ok steps ∧
      p = root.under names ∧ Fits isName steps names ∧
      (Within w.cwd root p ↔ Path.Returns (w.cwd.resolve root).parts names) ∧
      (descends 0 steps → Within w.cwd root p) ∧
      (IsPlain (lastPiece name.toList ++ w.session.extension.toList) →
        (w.cwd.resolve p).name =
          String.ofList (lastPiece name.toList) ++ w.session.extension) ∧
      (root.Formed → Path.ofString p.toString = p) ∧
      ∀ host, (tryLoad host name).outcome w = (load host (.text p.toString)).outcome w ∧
        (tryLoad host name).after w = (load host (.text p.toString)).after w := by
  obtain ⟨root, steps, ps, hr, hs, hps, hp⟩ := exists_of_find h
  obtain ⟨names, rfl, hf⟩ := fits_of_mem_search ht hps hp
  refine ⟨root, steps, names, hr, hs, rfl, hf, ?_, fun hd => ?_, fun hl => ?_, fun hroot => ?_,
    fun host => ?_⟩
  · rw [Within, Path.resolve_under]
    exact Path.prefix_walk_iff
  · rw [Within, Path.resolve_under]
    exact Path.prefix_walk_of_up (up_of_descends hd hf rfl (Nat.zero_le _)) _
  · have hslash : '/' ∉ w.session.extension.toList := fun hm =>
      not_mem_of_isName hl.1 (by rw [String.toList_ofList]; exact List.mem_append_right _ hm)
    have he : lastPiece (name ++ w.session.extension).toList =
        lastPiece name.toList ++ w.session.extension.toList := by
      rw [String.toList_append, lastPiece_append _ hslash]
    obtain ⟨front, rfl, hn⟩ := exists_of_searchSteps_plain hs (he ▸ hl)
    obtain ⟨more, rfl⟩ := exists_of_fits_concat hn hf
    rw [Path.name, Path.resolve_under, he, Path.walk_concat (ne_dots_of_isName hl.1),
      List.getLastD_concat, String.ofList_append, String.ofList_toList]
  · exact Path.ofString_toString
      (hroot.under (isPart_of_fits
        (fun _ hx => isPart_of_mem_namesIn (mem_namesIn_of_named_mem hs hx)) hf))
  · have ha := after_find_of_some h
    exact ⟨by rw [tryLoad, outcome_bind_of_ok h, ha], by rw [tryLoad, after_bind_of_ok h, ha]⟩

/-- A folder of scripts with a script in it and one beside it. -/
def besides : World where
  files := (((default : Node).put (.file (Text.encode "x = 1")) ["s", "a.lua"]).put
    (.file (Text.encode "x = 2")) ["b.lua"])
  session := { root := some ⟨"", ["s"]⟩, extension := ".lua" }

/-- A script that is asked for by its name is found in the folder and has the name. -/
theorem confined_find_of_name :
    (find "a").outcome besides = .ok (some ⟨"", ["s", "a.lua"]⟩) ∧
      Within besides.cwd ⟨"", ["s"]⟩ ⟨"", ["s", "a.lua"]⟩ ∧
      (besides.cwd.resolve ⟨"", ["s", "a.lua"]⟩).name = "a" ++ ".lua" := by
  have ht : besides.files.all isName := by decide +kernel
  have h : (find "a").outcome besides = .ok (some ⟨"", ["s", "a.lua"]⟩) := by decide +kernel
  obtain ⟨root, steps, names, hr, hs, -, -, -, hd, hn, -, -⟩ := confined_find ht h
  cases hr
  obtain rfl : [.deep, .named "a.lua"] = steps := Except.ok.inj (.trans (by decide +kernel) hs)
  exact ⟨h, hd (by decide), hn (by decide +kernel)⟩

/-- Two dots in a name lead out of the folder of scripts. -/
theorem not_within_of_find :
    (find "../b").outcome besides = .ok (some ⟨"", ["s", "..", "b.lua"]⟩) ∧
      ¬ Within besides.cwd ⟨"", ["s"]⟩ ⟨"", ["s", "..", "b.lua"]⟩ := by
  decide +kernel

end ScriptHost.Op
