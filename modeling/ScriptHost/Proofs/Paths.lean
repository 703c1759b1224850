import Mathlib.Data.List.Induction
import ScriptHost.Files.Tree

/-!
# Where paths lead

A path that goes on from a folder leads first up and then down again (`Path.walk_eq`), so it ends at
or below the folder iff it comes down through the folders it has left (`Path.prefix_walk_iff`). A
path whose names are names is the one its text is read as (`Path.ofString_toString`).
-/
namespace ScriptHost.Files

/-! ### Pieces between slashes -/

theorem splitSlashes_cons (c : Char) (cs : List Char) :
    splitSlashes (c :: cs) =
      if c = '/' then [] :: splitSlashes cs
      else match splitSlashes cs with
        | [] => [[c]]
        | piece :: rest => (c :: piece) :: rest :=
  rfl

theorem splitSlashes_ne_nil (cs : List Char) : splitSlashes cs ≠ [] := by
  cases cs with
  | nil => simp [splitSlashes]
  | cons c cs =>
    rw [splitSlashes_cons]
    split
    · simp
    · split <;> simp

theorem splitSlashes_slash (cs : List Char) :
    splitSlashes ('/' :: cs) = [] :: splitSlashes cs := by
  rw [splitSlashes_cons, if_pos rfl]

theorem splitSlashes_other {c : Char} (hc : c ≠ '/') (cs : List Char) :
    ∃ piece rest, splitSlashes cs = piece :: rest ∧
      splitSlashes (c :: cs) = (c :: piece) :: rest := by
  obtain ⟨piece, rest, h⟩ := List.exists_cons_of_ne_nil (splitSlashes_ne_nil cs)
  exact ⟨piece, rest, h, by rw [splitSlashes_cons, if_neg hc, h]⟩

theorem not_mem_of_mem_splitSlashes {cs piece : List Char} (h : piece ∈ splitSlashes cs) :
    '/' ∉ piece := by
  induction cs generalizing piece with
  | nil =>
    obtain rfl : piece = [] := by simpa [splitSlashes] using h
    exact List.not_mem_nil
  | cons c cs ih =>
    by_cases hc : c = '/'
    · subst hc
      rw [splitSlashes_slash, List.mem_cons] at h
      rcases h with rfl | h
      · exact List.not_mem_nil
      · exact ih h
    · obtain ⟨first, rest, hs, hs'⟩ := splitSlashes_other hc cs
      rw [hs', List.mem_cons] at h
      rw [hs] at ih
      rcases h with rfl | h
      · rw [List.mem_cons, not_or]
        exact ⟨fun e => hc e.symm, ih List.mem_cons_self⟩
      · exact ih (List.mem_cons_of_mem _ h)

theorem splitSlashes_of_not_mem {cs : List Char} (h : '/' ∉ cs) : splitSlashes cs = [cs] := by
  induction cs with
  | nil => rfl
  | cons c cs ih =>
    rw [List.mem_cons, not_or] at h
    rw [splitSlashes_cons, if_neg (fun e => h.1 e.symm), ih h.2]

/-- A text that ends at a slash has its own pieces, whatever comes after the slash. -/
theorem splitSlashes_append_slash (cs ds : List Char) :
    splitSlashes (cs ++ '/' :: ds) = splitSlashes cs ++ splitSlashes ds := by
  induction cs with
  | nil => exact splitSlashes_slash ds
  | cons c cs ih =>
    by_cases hc : c = '/'
    · subst hc
      rw [List.cons_append, splitSlashes_slash, splitSlashes_slash, ih, List.cons_append]
    · obtain ⟨piece, rest, hs, hs'⟩ := splitSlashes_other hc cs
      rw [List.cons_append, splitSlashes_cons, if_neg hc, ih, hs', hs]
      rfl

/-- The piece of a text after its last slash. -/
def lastPiece (cs : List Char) : List Char :=
  (splitSlashes cs).getLastD []

/-- What has no slash and is put behind a text comes to its last piece. -/
theorem splitSlashes_append (cs : List Char) {ds : List Char} (h : '/' ∉ ds) :
    splitSlashes (cs ++ ds) = (splitSlashes cs).dropLast ++ [lastPiece cs ++ ds] := by
  induction cs with
  | nil => exact splitSlashes_of_not_mem h
  | cons c cs ih =>
    by_cases hc : c = '/'
    · subst hc
      obtain ⟨piece, rest, hs⟩ := List.exists_cons_of_ne_nil (splitSlashes_ne_nil cs)
      rw [lastPiece, hs] at ih
      rw [List.cons_append, splitSlashes_slash, ih, lastPiece, splitSlashes_slash, hs]
      rfl
    · obtain ⟨piece, rest, hs, hs'⟩ := splitSlashes_other hc cs
      rw [lastPiece, hs] at ih
      rw [List.cons_append, splitSlashes_cons, if_neg hc, ih, lastPiece, hs']
      cases rest <;> rfl

theorem splitSlashes_eq (cs : List Char) :
    splitSlashes cs = (splitSlashes cs).dropLast ++ [lastPiece cs] := by
  simpa using splitSlashes_append cs List.not_mem_nil

theorem lastPiece_append (cs : List Char) {ds : List Char} (h : '/' ∉ ds) :
    lastPiece (cs ++ ds) = lastPiece cs ++ ds := by
  rw [lastPiece, splitSlashes_append cs h, List.getLastD_concat]

/-! ### Names -/

/-- A text that can be the name of a file. -/
def isName (x : String) : Bool :=
  x ≠ "" && x ≠ "." && x ≠ ".." && !x.toList.contains '/'

/-- A text that can be a part of a path: a name, or two dots. -/
def isPart (x : String) : Bool :=
  x ≠ "" && x ≠ "." && !x.toList.contains '/'

theorem isPart_of_isName {x : String} (h : isName x) : isPart x := by
  simp only [isName, isPart, Bool.and_eq_true] at h ⊢
  exact ⟨h.1.1, h.2⟩

theorem ne_dots_of_isName {x : String} (h : isName x) : x ≠ ".." := by
  simp only [isName, Bool.and_eq_true, decide_eq_true_eq] at h
  exact h.1.2

theorem not_mem_of_isName {x : String} (h : isName x) : '/' ∉ x.toList := by
  simp only [isName, Bool.and_eq_true] at h
  simpa using h.2

theorem isPart_of_mem_namesIn {cs : List Char} {x : String} (h : x ∈ namesIn cs) : isPart x := by
  simp only [namesIn, List.mem_map, List.mem_filter, Bool.and_eq_true, decide_eq_true_eq] at h
  obtain ⟨piece, ⟨hp, hne, hdot⟩, rfl⟩ := h
  have hs := not_mem_of_mem_splitSlashes hp
  simp only [isPart, Bool.and_eq_true, decide_eq_true_eq]
  refine ⟨⟨?_, ?_⟩, by simpa using hs⟩
  · rwa [Ne, String.ofList_eq_empty_iff]
  · exact fun e => hdot (by rw [← String.toList_ofList (l := piece), e]; rfl)

/-- The names in a text end with its last piece, where that is a name. -/
theorem namesIn_eq {cs : List Char} (hne : lastPiece cs ≠ []) (hdot : lastPiece cs ≠ ['.']) :
    ∃ front, namesIn cs = front ++ [String.ofList (lastPiece cs)] := by
  refine ⟨((splitSlashes cs).dropLast.filter fun p => p ≠ [] && p ≠ ['.']).map String.ofList, ?_⟩
  rw [namesIn, splitSlashes_eq cs, List.filter_append, List.map_append]
  simp [hne, hdot]

theorem namesIn_slash (cs : List Char) : namesIn ('/' :: cs) = namesIn cs := by
  rw [namesIn, splitSlashes_slash, namesIn]
  rfl

theorem namesIn_intercalate {parts : List String} (h : ∀ x ∈ parts, isPart x) :
    namesIn (List.intercalate ['/'] (parts.map String.toList)) = parts := by
  have single (x : String) (hx : isPart x) : '/' ∉ x.toList ∧
      ([x.toList].filter (fun p => p ≠ [] && p ≠ ['.'])).map String.ofList = [x] := by
    simp only [isPart, Bool.and_eq_true, decide_eq_true_eq] at hx
    have hd : x.toList ≠ ['.'] := fun e => hx.1.2 (by rw [← String.ofList_toList (s := x), e])
    exact ⟨by simpa using hx.2, by simp [hx.1.1, hd]⟩
  induction parts with
  | nil => rfl
  | cons x rest ih =>
    obtain ⟨hs, hx⟩ := single x (h x List.mem_cons_self)
    have ih := ih fun y hy => h y (List.mem_cons_of_mem _ hy)
    cases rest with
    | nil => simpa [namesIn, splitSlashes_of_not_mem hs] using hx
    | cons y rest =>
      rw [List.map_cons, List.map_cons, List.intercalate_cons_cons, ← List.map_cons, namesIn,
        List.append_assoc, List.singleton_append, splitSlashes_append_slash,
        splitSlashes_of_not_mem hs, List.filter_append, List.map_append, hx]
      exact congrArg (x :: ·) ih

/-! ### Texts of paths -/

namespace Path

/-- A path as it is read from a text. -/
structure Formed (p : Path) : Prop where
  root : p.root ∈ ["", "/", "//"]
  parts : ∀ x ∈ p.parts, isPart x

theorem formed_ofString (s : String) : (ofString s).Formed where
  root := by
    show rootOf s.toList ∈ _
    unfold rootOf
    split <;> simp
  parts := fun _ => isPart_of_mem_namesIn

theorem head?_intercalate {x : String} (hx : isPart x) (rest : List String) :
    (List.intercalate ['/'] ((x :: rest).map String.toList)).head? ≠ some '/' := by
  simp only [isPart, Bool.and_eq_true, decide_eq_true_eq] at hx
  have hs : '/' ∉ x.toList := by simpa using hx.2
  have hh : x.toList.head? ≠ some '/' := fun e => hs (List.mem_of_mem_head? e)
  have hne : x.toList ≠ [] := by simpa using hx.1.1
  obtain ⟨c, cs, hc⟩ := List.exists_cons_of_ne_nil hne
  cases rest with
  | nil => simpa using hh
  | cons y rest =>
    rw [List.map_cons, List.map_cons, List.intercalate_cons_cons, hc]
    rwa [hc] at hh

/-- The root of a text is not changed by names behind it. -/
theorem rootOf_append {root : String} (hr : root ∈ ["", "/", "//"]) {cs : List Char}
    (h : cs.head? ≠ some '/') : rootOf (root.toList ++ cs) = root := by
  simp only [List.mem_cons, List.not_mem_nil, or_false] at hr
  cases cs with
  | nil => rcases hr with rfl | rfl | rfl <;> rfl
  | cons c cs =>
    have hc : c ≠ '/' := fun e => h (by rw [e]; rfl)
    rcases hr with rfl | rfl | rfl <;> simp [rootOf, hc]

theorem namesIn_append {root : String} (hr : root ∈ ["", "/", "//"]) (cs : List Char) :
    namesIn (root.toList ++ cs) = namesIn cs := by
  simp only [List.mem_cons, List.not_mem_nil, or_false] at hr
  rcases hr with rfl | rfl | rfl
  · rfl
  · exact namesIn_slash cs
  · exact (namesIn_slash ('/' :: cs)).trans (namesIn_slash cs)

/-- A path is read from its text as it is. -/
theorem ofString_toString {p : Path} (hp : p.Formed) : ofString p.toString = p := by
  obtain ⟨root, parts⟩ := p
  obtain ⟨hr, hps⟩ := hp
  by_cases hd : root = "" && parts.isEmpty
  · obtain ⟨rfl, rfl⟩ : root = "" ∧ parts = [] := by simpa using hd
    rfl
  · have hc : (List.intercalate ['/'] (parts.map String.toList)).head? ≠ some '/' := by
      cases parts with
      | nil => nofun
      | cons x rest => exact head?_intercalate (hps x List.mem_cons_self) rest
    have ht : (root ++ "/".intercalate parts).toList =
        root.toList ++ List.intercalate ['/'] (parts.map String.toList) := by
      rw [String.toList_append, String.toList_intercalate]
      rfl
    rw [toString, if_neg hd, ofString, ht, rootOf_append hr hc, namesIn_append hr,
      namesIn_intercalate hps]

/-! ### Up and down -/

/-- The path that goes on from another. -/
def under (p : Path) (names : List String) : Path :=
  ⟨p.root, p.parts ++ names⟩

@[simp] theorem under_nil (p : Path) : p.under [] = p := by
  simp [under]

@[simp] theorem under_under (p : Path) (names more : List String) :
    (p.under names).under more = p.under (names ++ more) := by
  simp [under]

theorem child_eq (p : Path) (x : String) : p.child x = p.under [x] :=
  rfl

theorem Formed.under {p : Path} (hp : p.Formed) {names : List String}
    (h : ∀ x ∈ names, isPart x) : (p.under names).Formed where
  root := hp.root
  parts := fun x hx => (List.mem_append.mp hx).elim (hp.parts x) (h x)

/-- Where names lead to from a folder, given by its own names. -/
def walk (here names : List String) : List String :=
  names.foldl (fun acc x => if x = ".." then acc.dropLast else acc ++ [x]) here

theorem walk_cons (here : List String) (x : String) (names : List String) :
    walk here (x :: names) = walk (if x = ".." then here.dropLast else here ++ [x]) names :=
  rfl

theorem walk_append (here names more : List String) :
    walk here (names ++ more) = walk (walk here names) more :=
  List.foldl_append

theorem walk_concat {x : String} (hx : x ≠ "..") (here names : List String) :
    walk here (names ++ [x]) = walk here names ++ [x] := by
  rw [walk_append, walk_cons, if_neg hx]
  rfl

theorem join_under (cwd p : Path) (names : List String) :
    cwd.join (p.under names) = (cwd.join p).under names := by
  unfold join
  by_cases h : p.isAbsolute
  · rw [if_pos h, if_pos (show (p.under names).isAbsolute from h)]
  · rw [if_neg h, if_neg (show ¬ (p.under names).isAbsolute from h)]
    exact congrArg (Path.mk cwd.root) (List.append_assoc ..).symm

theorem resolve_under (cwd p : Path) (names : List String) :
    (resolve cwd (p.under names)).parts = walk (resolve cwd p).parts names := by
  rw [resolve, join_under]
  exact walk_append [] _ names

/-- How far names lead up from where they begin, and the names they then lead down by. -/
structure Turn where
  up : Nat
  down : List String
  deriving DecidableEq, Repr

/-- One name more: two dots take back the last name down, or lead up if there is none. -/
def Turn.step (t : Turn) (x : String) : Turn :=
  if x ≠ ".." then { t with down := t.down ++ [x] }
  else if t.down = [] then { t with up := t.up + 1 }
  else { t with down := t.down.dropLast }

/-- The way that names lead. -/
def turn (names : List String) : Turn :=
  names.foldl Turn.step ⟨0, []⟩

/-- Where names lead to is seen from the way they lead. -/
theorem walk_eq (here names : List String) :
    walk here names = here.take (here.length - (turn names).up) ++ (turn names).down := by
  induction names using List.reverseRecOn with
  | nil => simp [walk, turn]
  | append_singleton names x ih =>
    have ht : turn (names ++ [x]) = (turn names).step x := List.foldl_append
    rw [walk_append, ih, ht, walk_cons, Turn.step]
    by_cases hx : x = ".."
    · by_cases hd : (turn names).down = []
      · simp only [hx, hd, ne_eq, not_true_eq_false, if_false, if_true, List.append_nil]
        rw [List.dropLast_eq_take, List.length_take, List.take_take]
        exact congrArg (List.take · here) (by omega)
      · simp only [hx, hd, ne_eq, not_true_eq_false, if_false, if_true]
        exact List.dropLast_append_of_ne_nil hd
    · simp only [hx, ne_eq, not_false_eq_true, if_false, if_true, ← List.append_assoc]
      rfl

/-- Names lead down again through all that they have left. -/
def Returns (here names : List String) : Prop :=
  here.drop (here.length - (turn names).up) <+: (turn names).down

instance (here names : List String) : Decidable (Returns here names) :=
  inferInstanceAs (Decidable (_ <+: _))

/-- Names lead to a place at or below where they begin iff they lead down again through what they
have left. -/
theorem prefix_walk_iff {here names : List String} :
    here <+: walk here names ↔ Returns here names := by
  unfold Returns
  have h {front back down : List String} (he : here = front ++ back) :
      here <+: front ++ down ↔ back <+: down := by
    rw [he]
    exact List.prefix_append_right_inj front
  rw [walk_eq]
  exact h (List.take_append_drop ..).symm

/-- Names that never lead up lead to a place below. -/
theorem prefix_walk_of_up {names : List String} (h : (turn names).up = 0) (here : List String) :
    here <+: walk here names := by
  rw [prefix_walk_iff, Returns, h, Nat.sub_zero, List.drop_length]
  exact List.nil_prefix

end Path

/-! ### Trees -/

namespace Node

/-- The names that lead to a node are those of its path, without double dots. -/
theorem follow_ok {root n : Node} {here names there : List String}
    (h : follow root here names = .ok (there, n)) :
    there = Path.walk here names ∧ root.get? there = some n := by
  induction names generalizing here with
  | nil =>
    unfold follow at h
    split at h
    · next hg => 
      cases h
      exact ⟨rfl, hg⟩
    · cases h
  | cons x rest ih =>
    unfold follow at h
    split at h
    · split at h
      · cases h
      · split at h
        · next hx =>
          rw [Path.walk_cons, if_pos hx]
          exact ih h
        · next hx =>
          split at h
          · rw [Path.walk_cons, if_neg hx]
            exact ih h
          · cases h
    · cases h
    · cases h

theorem locate_ok {root n : Node} {cwd p : Path} {there : List String}
    (h : root.locate cwd p = .ok (there, n)) :
    there = (cwd.resolve p).parts ∧ root.get? there = some n :=
  follow_ok h

end Node

end ScriptHost.Files
