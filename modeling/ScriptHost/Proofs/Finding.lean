import Mathlib.Data.List.Lex
import Mathlib.Data.String.Basic
import ScriptHost.Application.Respond
import ScriptHost.Proofs.Replies

/-!
# What a search for a name finds

A search for a name at any depth gives all that has the name, files and folders alike
(`mem_search_deep_iff`), and the first of them is taken (`find_isFirst`). So the first file of a
name is found iff no folder of the name comes before all files of it (`find_isFirst_iff`).
-/
namespace ScriptHost.Files

/-! ### Following names down a tree -/

namespace Node

theorem get?_append (n : Node) (names more : List String) :
    n.get? (names ++ more) = (n.get? names).bind fun m => m.get? more := by
  induction names generalizing n with
  | nil => rfl
  | cons x rest ih =>
    rw [List.cons_append, get?, get?]
    cases n.entries.lookup x with
    | none => rfl
    | some m => exact ih m

/-- Names that go on from where others lead are followed from there. -/
theorem follow_append {root m : Node} {here there names : List String}
    (h : follow root here names = .ok (there, m)) (more : List String) :
    follow root here (names ++ more) = follow root there more := by
  induction names generalizing here with
  | nil =>
    unfold follow at h
    split at h
    · cases h
      rfl
    · cases h
  | cons x rest ih =>
    unfold follow at h
    rw [List.cons_append]
    conv_lhs => unfold follow
    split at h
    · split at h
      · cases h
      · next hl =>
        rw [if_neg hl]
        split at h
        · next hx =>
          rw [if_pos hx]
          exact ih h
        · next hx =>
          rw [if_neg hx]
          split at h
          · next hs =>
            rw [if_pos hs]
            exact ih h
          · cases h
    · cases h
    · cases h

/-- Short names are followed down a tree as far as they lead. -/
theorem follow_of_get? {root n m : Node} {here names : List String} (hn : root.get? here = some n)
    (hm : n.get? names = some m) (hs : ∀ x ∈ names, isShort x ∧ x ≠ "..") :
    follow root here names = .ok (here ++ names, m) := by
  induction names generalizing here n with
  | nil =>
    cases hm
    rw [follow, hn, List.append_nil]
  | cons x rest ih =>
    rw [List.forall_mem_cons] at hs
    obtain ⟨⟨hshort, hdots⟩, hs⟩ := hs
    rw [get?] at hm
    obtain _ | es := n
    · cases hm
    · cases hl : es.lookup x with
      | none =>
        rw [entries, hl] at hm
        cases hm
      | some k =>
        rw [entries, hl] at hm
        have hk : root.get? (here ++ [x]) = some k := by
          rw [get?_append, hn, Option.bind_some, get?, entries, hl]
          rfl
        have hx : ¬ nameLimit < x.utf8ByteSize := by simpa [isShort] using hshort
        rw [follow, hn]
        dsimp only
        rw [if_neg hx, if_neg hdots, hl, Option.isSome_some, if_pos rfl, ih hk hm hs,
          List.append_assoc, List.singleton_append]

end Node

theorem Path.walk_of_ne_dots {names : List String} (h : ∀ x ∈ names, x ≠ "..")
    (here : List String) : walk here names = here ++ names := by
  induction names generalizing here with
  | nil => exact (List.append_nil here).symm
  | cons x rest ih =>
    rw [List.forall_mem_cons] at h
    rw [walk_cons, if_neg h.1, ih h.2, List.append_assoc, List.singleton_append]

/-- A name that a file can have: it is a name, it is not too long, and there is no zero in it. -/
def isProper (x : String) : Bool :=
  isName x && isShort x && !x.toList.contains '\x00'

theorem isProper_iff {x : String} : isProper x ↔ isName x ∧ isShort x ∧ '\x00' ∉ x.toList := by
  simp [isProper, and_assoc]

/-- The names that lead to a node are names in the tree. -/
theorem Node.of_get? {P : String → Bool} {n m : Node} {names : List String} (h : n.all P)
    (hg : n.get? names = some m) : ∀ x ∈ names, P x := by
  induction names generalizing n with
  | nil => exact fun _ => nofun
  | cons x rest ih =>
    rw [get?] at hg
    cases hl : n.entries.lookup x with
    | none =>
      rw [hl] at hg
      cases hg
    | some k =>
      rw [hl] at hg
      obtain ⟨front, back, he, -⟩ := List.lookup_eq_some_iff.mp hl
      obtain ⟨hx, hk⟩ := all_of_mem h (he ▸ List.mem_append_right front List.mem_cons_self)
      rw [List.forall_mem_cons]
      exact ⟨hx, ih hk hg⟩

section
variable {root n : Node} {cwd p : Path}

/-- Below a folder, a path of short names leads to what is in the tree. -/
theorem look_under (hr : root.all isProper) (h : look root cwd p = .ok (some n))
    {names : List String} (hs : ∀ x ∈ names, isName x ∧ isShort x) :
    look root cwd (p.under names) = .ok (n.get? names) := by
  have hn : n.all isProper := all_of_look hr h
  have hdown : ∀ x ∈ names, isShort x ∧ x ≠ ".." :=
    fun x hx => ⟨(hs x hx).2, ne_dots_of_isName (hs x hx).1⟩
  unfold look at h
  split at h
  · cases h
  next hz =>
  split at h
  next there n hl =>
    cases h
    have hfollow : root.locate cwd (p.under names) = Node.follow root there names := by
      rw [Node.locate, Path.join_under]
      exact Node.follow_append hl names
    have hthere := (Node.locate_ok hl).2
    have hzero : (p.under names).parts.any (·.toList.contains '\x00') =
        names.any (·.toList.contains '\x00') := by
      rw [Path.under, List.any_append, Bool.eq_false_iff.mpr hz, Bool.false_or]
    rw [look, hzero, hfollow]
    cases hg : n.get? names with
    | some m =>
      have hnone : names.any (·.toList.contains '\x00') = false :=
        List.any_eq_false.mpr fun x hx => by
          simpa using (isProper_iff.mp (Node.of_get? hn hg x hx)).2.2
      rw [if_neg (hnone ▸ Bool.false_ne_true), Node.follow_of_get? hthere hg hdown]
    | none =>
      cases hw : Node.follow root there names with
      | ok found =>
        obtain ⟨there', m⟩ := found
        obtain ⟨rfl, hm⟩ := Node.follow_ok hw
        rw [Path.walk_of_ne_dots fun x hx => (hdown x hx).2, Node.get?_append, hthere,
          Option.bind_some, hg] at hm
        cases hm
      | error e =>
        have hlong : e ≠ .nameTooLong := by
          rintro rfl
          obtain ⟨x, hx, hlong⟩ := exists_of_follow hw
          exact hlong (hs x hx).2
        split
        · rfl
        · cases e <;> first | rfl | exact absurd rfl hlong
  all_goals cases h

/-! ### All that has a name -/

theorem Path.under_injective (p : Path) : Function.Injective p.under := by
  intro names more h
  exact List.append_cancel_left (congrArg Path.parts h)

theorem mem_foldersBelow_go {p q : Path} {x : String} {es : List (String × Node)}
    (h : (x, n) ∈ es) (hq : q ∈ foldersBelow (p.child x) n) : q ∈ foldersBelow.go p es := by
  induction es with
  | nil => cases h
  | cons e rest ih =>
    obtain ⟨y, m⟩ := e
    rw [foldersBelow.go, List.mem_append]
    rcases List.mem_cons.mp h with he | h
    · cases he
      exact .inl hq
    · exact .inr (ih h)

/-- All folders below a folder are reached. -/
theorem mem_foldersBelow {m : Node} {names : List String} (hm : n.get? names = some m)
    (hf : m.isFolder) (p : Path) : p.under names ∈ foldersBelow p n := by
  induction names generalizing n p with
  | nil =>
    obtain _ | es := n
    · cases hm
      cases hf
    · rw [Path.under_nil, foldersBelow]
      exact List.mem_cons_self
  | cons x rest ih =>
    obtain _ | es := n
    · cases hm
    · rw [Node.get?, Node.entries] at hm
      cases hl : es.lookup x with
      | none =>
        rw [hl] at hm
        cases hm
      | some k =>
        rw [hl] at hm
        obtain ⟨front, back, he, -⟩ := List.lookup_eq_some_iff.mp hl
        have hmem : (x, k) ∈ es := he ▸ List.mem_append_right front List.mem_cons_self
        have := ih hm (p.child x)
        rw [Path.child_eq, Path.under_under] at this
        rw [foldersBelow]
        exact List.mem_cons_of_mem _ (mem_foldersBelow_go hmem this)

theorem mem_of_mapM {α β : Type} {f : α → Except Fault β} {xs : List α} {ys : List β}
    (h : xs.mapM f = .ok ys) {x : α} (hx : x ∈ xs) {y : β} (hy : f x = .ok y) : y ∈ ys := by
  induction xs generalizing ys with
  | nil => cases hx
  | cons z rest ih =>
    rw [List.mapM_cons] at h
    obtain ⟨b, hb, h⟩ := exists_of_except_bind h
    obtain ⟨bs, hr, h⟩ := exists_of_except_bind h
    cases h
    rcases List.mem_cons.mp hx with rfl | hx
    · cases hb.symm.trans hy
      exact List.mem_cons_self
    · exact List.mem_cons_of_mem _ (ih hr hx)

/-- What is given after each step is all that is given by the steps that follow. -/
theorem mem_search_cons_iff {s : Step} (hs : s ≠ .stop) {rest : List Step} {q : Path}
    {ps : List Path} (h : search root cwd (s :: rest) p = .ok ps) :
    q ∈ ps ↔ ∃ n, look root cwd (s.asked p) = .ok (some n) ∧
      ∃ m ∈ s.leads rest.isEmpty p n, ∃ qs, search root cwd rest m = .ok qs ∧ q ∈ qs := by
  refine ⟨exists_of_mem_search hs h, ?_⟩
  rintro ⟨n, hn, m, hm, qs, hqs, hq⟩
  rw [search_cons hs] at h
  obtain ⟨found, hl, h⟩ := exists_of_except_bind h
  cases hn.symm.trans hl
  obtain ⟨qss, hqss, h⟩ := exists_of_except_bind h
  cases h
  rw [Step.mem_tidy, List.mem_flatten]
  exact ⟨qs, mem_of_mapM hqss hm hqs, hq⟩

/-- What has a name below a folder is in a folder itself. -/
theorem exists_folder_of_get?_append {names : List String} {x : String}
    (h : (n.get? (names ++ [x])).isSome) : ∃ f, n.get? names = some f ∧ f.isFolder := by
  obtain ⟨m, hm⟩ := Option.isSome_iff_exists.mp h
  rw [Node.get?_append] at hm
  obtain ⟨f, hf, hm⟩ := Option.bind_eq_some_iff.mp hm
  cases f with
  | file c => cases hm
  | folder es => exact ⟨_, hf, rfl⟩

section

variable (hr : root.all isProper) (h : look root cwd p = .ok (some n)) {x : String} (hx : isName x)
  (hs : isShort x)
include hr h hx hs

/-- What has the name in a folder below is asked for by its path. -/
theorem look_child_under {names : List String} (hnames : ∀ y ∈ names, isProper y) :
    look root cwd ((p.under names).child x) = .ok (n.get? (names ++ [x])) := by
  rw [Path.child_eq, Path.under_under]
  refine look_under hr h <| List.forall_mem_append.mpr ⟨fun y hy => ?_,
    List.forall_mem_singleton.mpr ⟨hx, hs⟩⟩
  exact ⟨(isProper_iff.mp (hnames y hy)).1, (isProper_iff.mp (hnames y hy)).2.1⟩

theorem isOk_search_deep : (search root cwd [.deep, .named x] p).isOk := by
  have hdeep : Step.deep ≠ .stop := nofun
  have hnamed : Step.named x ≠ .stop := nofun
  rw [isOk_search_iff, clear_cons hdeep, show Step.deep.asked p = p from rfl, h]
  refine ⟨rfl, fun n' hn' q hq => ?_⟩
  cases hn'
  obtain ⟨names, rfl, hnames⟩ := exists_of_mem_foldersBelow (all_of_look hr h) hq
  rw [clear_cons hnamed, Step.asked, look_child_under hr h hx hs hnames]
  exact ⟨rfl, fun _ _ _ _ => trivial⟩

/-- A search for a name at any depth gives all that has the name. -/
theorem mem_search_deep_iff :
    ∃ ps, search root cwd [.deep, .named x] p = .ok ps ∧ ∀ q, q ∈ ps ↔
      ∃ names, q = p.under (names ++ [x]) ∧ (n.get? (names ++ [x])).isSome := by
  have hn : n.all isProper := all_of_look hr h
  have hdeep : Step.deep ≠ .stop := nofun
  have hnamed : Step.named x ≠ .stop := nofun
  have hok := isOk_search_deep hr h hx hs
  cases hps : search root cwd [.deep, .named x] p with
  | error e =>
    rw [hps] at hok
    cases hok
  | ok ps =>
    refine ⟨ps, rfl, fun q => ?_⟩
    rw [mem_search_cons_iff hdeep hps]
    constructor
    · rintro ⟨n', hn', q', hq', qs, hqs, hq⟩
      cases h.symm.trans hn'
      obtain ⟨names, rfl, hnames⟩ := exists_of_mem_foldersBelow hn hq'
      obtain ⟨m, hm, q', hq', qs, hqs, hq⟩ := (mem_search_cons_iff hnamed hqs).mp hq
      cases hqs
      rw [Step.asked, look_child_under hr h hx hs hnames] at hm
      obtain rfl := List.mem_singleton.mp hq
      obtain rfl : q = (p.under names).child x := by simpa [Step.leads] using hq'
      exact ⟨names, by rw [Path.child_eq, Path.under_under], by rw [Except.ok.inj hm]; rfl⟩
    · rintro ⟨names, rfl, hsome⟩
      obtain ⟨f, hf, hfolder⟩ := exists_folder_of_get?_append hsome
      obtain ⟨m, hm⟩ := Option.isSome_iff_exists.mp hsome
      refine ⟨n, h, p.under names, mem_foldersBelow hf hfolder p, [(p.under names).child x], ?_, ?_⟩
      · rw [search_cons hnamed, Step.asked, look_child_under hr h hx hs (Node.of_get? hn hf), hm]
        rfl
      · rw [Path.child_eq, Path.under_under]
        exact List.mem_singleton_self _

end

end

/-! ### What comes first -/

theorem Path.eq_or_before {p q : Path} (h : ¬ q.before p) : q = p ∨ p.before q := by
  simp only [before, decide_eq_true_eq, not_lt] at h ⊢
  rcases h.lt_or_eq with h | h
  · exact .inr h
  · obtain ⟨root, parts⟩ := p
    obtain ⟨root', parts'⟩ := q
    cases h
    exact .inl rfl

theorem Path.before_trans {p q r : Path} (h : p.before q) (h' : q.before r) : p.before r := by
  simp only [before, decide_eq_true_eq] at h h' ⊢
  exact h.trans h'

theorem Path.not_before_self (p : Path) : ¬ p.before p := by
  simp [before]

/-- What comes first of the paths of a kind, or nothing if there are none. -/
def IsFirst (kind : Path → Prop) : Option Path → Prop
  | none => ∀ p, ¬ kind p
  | some p => kind p ∧ ∀ q, kind q → q = p ∨ p.before q

theorem IsFirst.congr {kind kind' : Path → Prop} (h : ∀ p, kind p ↔ kind' p) {found : Option Path}
    (hf : IsFirst kind found) : IsFirst kind' found := by
  obtain rfl : kind = kind' := funext fun p => propext (h p)
  exact hf

theorem isFirst_leastPath (ps : List Path) : IsFirst (· ∈ ps) (leastPath ps) := by
  induction ps with
  | nil => exact fun _ => List.not_mem_nil
  | cons p rest ih =>
    rw [leastPath]
    cases hl : leastPath rest with
    | none =>
      rw [hl] at ih
      refine ⟨List.mem_cons_self, fun q hq => .inl ?_⟩
      exact (List.mem_cons.mp hq).resolve_right (ih q)
    | some q =>
      rw [hl] at ih
      dsimp only
      split
      · next hb =>
        refine ⟨List.mem_cons_of_mem _ ih.1, fun r hr => ?_⟩
        rcases List.mem_cons.mp hr with rfl | hr
        · exact .inr hb
        · exact ih.2 r hr
      · next hb =>
        have hp := Path.eq_or_before hb
        refine ⟨List.mem_cons_self, fun r hr => ?_⟩
        rcases List.mem_cons.mp hr with rfl | hr
        · exact .inl rfl
        · rcases ih.2 r hr with rfl | hqr
          · exact hp
          · rcases hp with rfl | hpq
            · exact .inr hqr
            · exact .inr (Path.before_trans hpq hqr)

/-- A path leads to a node of a kind that lies below a folder, at any depth, and has a name. -/
def Lies (n : Node) (root : Path) (x : String) (kind : Node → Bool) (p : Path) : Prop :=
  ∃ names m, p = root.under (names ++ [x]) ∧ n.get? (names ++ [x]) = some m ∧ kind m

/-- The first of all that has a name is the first file that has it iff each folder that has it comes
after such a file. -/
theorem isFirst_file_iff {n : Node} {root : Path} {x : String} {found : Option Path}
    (h : IsFirst (Lies n root x fun _ => true) found) :
    IsFirst (Lies n root x fun m => !m.isFolder) found ↔
      ∀ q, Lies n root x Node.isFolder q →
        ∃ p, Lies n root x (fun m => !m.isFolder) p ∧ p.before q := by
  have any {kind : Node → Bool} {p : Path} (hp : Lies n root x kind p) :
      Lies n root x (fun _ => true) p := by
    obtain ⟨names, m, he, hm, -⟩ := hp
    exact ⟨names, m, he, hm, rfl⟩
  have not_both {p : Path} (hp : Lies n root x (fun m => !m.isFolder) p) :
      ¬ Lies n root x Node.isFolder p := by
    rintro ⟨names, m, he, hm, hf⟩
    obtain ⟨names', m', he', hm', hf'⟩ := hp
    obtain he := Path.under_injective root (he.symm.trans he')
    rw [he, hm'] at hm
    cases hm
    simp [hf] at hf'
  constructor
  · intro hfile q hq
    cases found with
    | none => exact absurd (any hq) (h q)
    | some p =>
      refine ⟨p, hfile.1, (h.2 q (any hq)).resolve_left ?_⟩
      rintro rfl
      exact not_both hfile.1 hq
  · intro hfolders
    cases found with
    | none => exact fun p hp => h p (any hp)
    | some p =>
      refine ⟨?_, fun q hq => h.2 q (any hq)⟩
      obtain ⟨names, m, he, hm, -⟩ := h.1
      by_contra hp
      have hfolder : Lies n root x Node.isFolder p := by
        refine ⟨names, m, he, hm, ?_⟩
        by_contra hm'
        exact hp ⟨names, m, he, hm, by simpa using hm'⟩
      obtain ⟨q, hq, hb⟩ := hfolders p hfolder
      rcases h.2 q (any hq) with rfl | hb'
      · exact hp hq
      · exact Path.not_before_self p (Path.before_trans hb' hb)

/-- A pattern that is a name is searched for as the name. -/
theorem searchSteps_of_isPlain {pattern : String} (h : IsPlain pattern.toList) :
    searchSteps pattern = .ok [.deep, .named pattern] := by
  obtain ⟨hn, hp⟩ := h
  rw [String.ofList_toList] at hn
  have hslash := not_mem_of_isName hn
  have hpart := isPart_of_isName hn
  have hroot : rootOf pattern.toList = "" := by
    cases hc : pattern.toList with
    | nil => rfl
    | cons c rest =>
      have hne : c ≠ '/' := by
        rintro rfl
        exact hslash (hc ▸ List.mem_cons_self)
      simp [rootOf, hne]
  have hlast : pattern.toList.getLast? ≠ some '/' := fun he =>
    hslash (List.mem_of_getLast? he)
  have hnames : namesIn pattern.toList = [pattern] := by
    have hparts : ∀ x ∈ [pattern], isPart x := by simpa using hpart
    have h := namesIn_intercalate hparts
    simpa using h
  rw [searchSteps, if_neg (by simpa using hroot)]
  dsimp only
  rw [if_neg hlast, hnames, List.mapM_cons, List.mapM_nil,
    Step.ofString_plain (ne_empty_of_isPart hpart) hp]
  rfl

end ScriptHost.Files

namespace ScriptHost.Op

open Files

variable {w : World}

/-- There is a folder of scripts, in a tree of files with names that files can have. -/
structure HasScripts (w : World) (root : Path) (n : Node) : Prop where
  isRoot : w.session.root = some root
  formed : root.Formed
  found : look w.files w.cwd root = .ok (some n)
  folder : n.isFolder
  proper : w.files.all isProper

/-- What is found under a name is the first of all that has the name. -/
theorem find_isFirst {root : Path} {n : Node} (h : HasScripts w root n) {name : String}
    (hp : IsPlain (name ++ w.session.extension).toList)
    (hs : isShort (name ++ w.session.extension)) :
    ∃ found, (find name).outcome w = .ok found ∧
      IsFirst (Lies n root (name ++ w.session.extension) fun _ => true) found := by
  have hn : isName (name ++ w.session.extension) := by simpa using hp.1
  obtain ⟨ps, hps, hmem⟩ := mem_search_deep_iff h.proper h.found hn hs
  refine ⟨leastPath ps, ?_, (isFirst_leastPath ps).congr fun p => (hmem p).trans ?_⟩
  · obtain _ | es := n
    · cases h.folder
    · rw [outcome_find, h.isRoot]
      dsimp only
      rw [h.found, searchSteps_of_isPlain hp]
      change (search w.files w.cwd [.deep, .named (name ++ w.session.extension)] root >>=
        fun ps => .ok (leastPath ps) : Except Fault (Option Path)) = _
      rw [hps]
      rfl
  · refine exists_congr fun names => ?_
    rw [Option.isSome_iff_exists]
    simp

/-- What a search for a plain name that is not too long leads to. The first of all that has the
name is found. It is the first file that has it iff each folder that has it comes after such a
file. What is found is loaded; where nothing is found, only the log says so. -/
theorem find_isFirst_iff {root : Path} {n : Node} (h : HasScripts w root n) {name : String}
    (hp : IsPlain (name ++ w.session.extension).toList)
    (hs : isShort (name ++ w.session.extension)) :
    ∃ found, (find name).outcome w = .ok found ∧
      IsFirst (Lies n root (name ++ w.session.extension) fun _ => true) found ∧
      (IsFirst (Lies n root (name ++ w.session.extension) fun m => !m.isFolder) found ↔
        ∀ q, Lies n root (name ++ w.session.extension) Node.isFolder q →
          ∃ p, Lies n root (name ++ w.session.extension) (fun m => !m.isFolder) p ∧
            p.before q) ∧
      ∀ host, (found = none → ∃ l, (tryLoad host name).outcome w = .ok false ∧
          (tryLoad host name).after w = { w with log := l }) ∧
        ∀ p, found = some p → Path.ofString p.toString = p ∧
          (tryLoad host name).outcome w = (load host (.text p.toString)).outcome w ∧
          (tryLoad host name).after w = (load host (.text p.toString)).after w := by
  obtain ⟨found, ho, hfirst⟩ := find_isFirst h hp hs
  refine ⟨found, ho, hfirst, isFirst_file_iff hfirst, fun host => ⟨?_, ?_⟩⟩
  · rintro rfl
    exact exists_tryLoad_of_none host ho
  · rintro p rfl
    have ha := after_find_of_some ho
    refine ⟨?_, by rw [tryLoad, outcome_bind_of_ok ho, ha],
      by rw [tryLoad, after_bind_of_ok ho, ha]⟩
    obtain ⟨names, m, rfl, hm, -⟩ := hfirst.1
    have hproper := Node.of_get? (all_of_look h.proper h.found) hm
    exact Path.ofString_toString
      (h.formed.under fun x hx => isPart_of_isName (isProper_iff.mp (hproper x hx)).1)

/-- A folder of scripts in which two files and a folder have the name of a script. -/
def shelves (folder : String) : World where
  files := (((default : Node).put (.file (Text.encode "x = 1")) ["s", "b-c", "a.lua"]).put
    (.file (Text.encode "x = 2")) ["s", "b", "a.lua"]).put
    (.file (Text.encode "")) ["s", folder, "a.lua", "notes"]
  session := { root := some ⟨"", ["s"]⟩, extension := ".lua", loaded := true }

/-- The folder of scripts. -/
def shelvesRoot (folder : String) : Node :=
  ((shelves folder).files.get? ["s"]).getD default

theorem hasScripts_shelves {folder : String} (h : folder = "a" ∨ folder = "c") :
    HasScripts (shelves folder) ⟨"", ["s"]⟩ (shelvesRoot folder) where
  isRoot := rfl
  formed := ⟨by decide, by decide +kernel⟩
  found := by rcases h with rfl | rfl <;> rfl
  folder := by rcases h with rfl | rfl <;> rfl
  proper := by rcases h with rfl | rfl <;> decide +kernel

/-- The first file is found where the folder comes last. -/
theorem find_isFirst_iff_of_late :
    (find "a").outcome (shelves "c") = .ok (some ⟨"", ["s", "b", "a.lua"]⟩) ∧
      IsFirst (Lies (shelvesRoot "c") ⟨"", ["s"]⟩ "a.lua" fun m => !m.isFolder)
        (some ⟨"", ["s", "b", "a.lua"]⟩) := by
  have ho : (find "a").outcome (shelves "c") = .ok (some ⟨"", ["s", "b", "a.lua"]⟩) := by
    decide +kernel
  obtain ⟨found, ho', hfirst, -⟩ := find_isFirst_iff (hasScripts_shelves (.inr rfl))
    (show IsPlain ("a" ++ ".lua").toList by decide +kernel) (by decide +kernel)
  cases ho.symm.trans ho'
  refine ⟨ho, ⟨["b"], .file (Text.encode "x = 2"), rfl, rfl, rfl⟩, ?_⟩
  rintro q ⟨names, m, he, hm, -⟩
  exact hfirst.2 q ⟨names, m, he, hm, rfl⟩

/-- A folder that comes first is found in place of the file, and the script that was loaded is
unloaded for it. -/
theorem not_isFirst_of_folder :
    (find "a").outcome (shelves "a") = .ok (some ⟨"", ["s", "a", "a.lua"]⟩) ∧
      Lies (shelvesRoot "a") ⟨"", ["s"]⟩ "a.lua" (fun m => !m.isFolder)
        ⟨"", ["s", "b", "a.lua"]⟩ ∧
      ¬ Lies (shelvesRoot "a") ⟨"", ["s"]⟩ "a.lua" (fun m => !m.isFolder)
        ⟨"", ["s", "a", "a.lua"]⟩ ∧
      ((tryLoad (respond 1) "a").after (shelves "a")).session.loaded = false := by
  refine ⟨by decide +kernel, ⟨["b"], .file (Text.encode "x = 2"), rfl, rfl, rfl⟩, ?_,
    by decide +kernel⟩
  rintro ⟨names, m, he, hm, hk⟩
  have hnames : ["a", "a.lua"] = names ++ ["a.lua"] :=
    Path.under_injective ⟨"", ["s"]⟩ he
  rw [← hnames] at hm
  obtain rfl : m = .folder [("notes", .file (Text.encode ""))] := (Option.some.inj hm).symm
  cases hk

end ScriptHost.Op
