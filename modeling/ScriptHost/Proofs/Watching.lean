import Mathlib.Data.List.TakeWhile
import ScriptHost.Proofs.Provision
import ScriptHost.Proofs.Searches

/-!
# What a watch takes for a script

A watch over the folder of scripts is to queue the files that a search for a script finds. It looks
at the suffix of a file, a search at all of the extension, so they agree for extensions of one piece
and for no others (`watchChanges_agrees_iff`).
-/
namespace ScriptHost

open Files (Path isName lastPiece)

/-! ### Extensions -/

/-- The extension that is meant by a text: a dot comes before it, unless there is one. -/
def withDot (extension : String) : String :=
  if extension.toList.head? = some '.' then extension else "." ++ extension

/-- An extension of one piece: a dot, and something without dots behind it. -/
def IsSingle (extension : String) : Prop :=
  extension.toList.head? = some '.' ∧ extension.toList.tail ≠ [] ∧
    '.' ∉ extension.toList.tail

instance (extension : String) : Decidable (IsSingle extension) :=
  inferInstanceAs (Decidable (_ ∧ _ ∧ _))

/-- The name of a file is a name with an extension behind it, and not the extension alone. -/
def HasExtension (extension : String) (p : Path) : Prop :=
  extension.toList <:+ p.name.toList ∧ extension.toList.length < p.name.toList.length

instance (extension : String) (p : Path) : Decidable (HasExtension extension p) :=
  inferInstanceAs (Decidable (_ ∧ _))

/-- No file has a name with such an extension. -/
def IsUnbearable (extension : String) : Prop :=
  '/' ∈ extension.toList ∨ '\x00' ∈ extension.toList

instance (extension : String) : Decidable (IsUnbearable extension) :=
  inferInstanceAs (Decidable (_ ∨ _))

theorem head?_withDot (extension : String) : (withDot extension).toList.head? = some '.' := by
  unfold withDot
  split
  · assumption
  · rw [String.toList_append]
    rfl

theorem hasExtension_iff {extension : String} {p : Path} :
    HasExtension extension p ↔ ∃ n, n ≠ "" ∧ p.name = n ++ extension := by
  constructor
  · rintro ⟨⟨n, hn⟩, hl⟩
    refine ⟨String.ofList n, fun he => ?_, ?_⟩
    · rw [String.ofList_eq_empty_iff] at he
      rw [← hn, he] at hl
      exact Nat.lt_irrefl _ hl
    · rw [← String.toList_inj, String.toList_append, String.toList_ofList, hn]
  · rintro ⟨n, hn, he⟩
    have hpos : n.toList ≠ [] := by simpa using hn
    rw [HasExtension, he, String.toList_append, List.length_append]
    exact ⟨List.suffix_append .., Nat.lt_add_of_pos_left (List.length_pos_iff.mpr hpos)⟩

namespace Files.Path

/-- A suffix is what a name has from its last dot on, unless a dot begins or ends the name. -/
theorem suffixOf_append {tail : List Char} (ht : tail ≠ []) (hd : '.' ∉ tail) {front : List Char}
    (hf : front ≠ []) : suffixOf (front ++ '.' :: tail) = '.' :: tail := by
  have htake : (front ++ '.' :: tail).reverse.takeWhile (· ≠ '.') = tail.reverse := by
    rw [List.reverse_append, List.reverse_cons, List.append_assoc, List.singleton_append,
      List.takeWhile_append_of_pos fun c hc => ?_]
    · simp
    · have hc' : c ≠ '.' := fun e => hd (e ▸ List.mem_reverse.mp hc)
      simpa using hc'
  have hpos := List.length_pos_iff.mpr hf
  have hlen : ¬ (front ++ '.' :: tail).length ≤ tail.reverse.length + 1 := by
    simp only [List.length_append, List.length_cons, List.length_reverse]
    omega
  have hne : tail.reverse.isEmpty = false := by simpa using ht
  simp only [suffixOf, htake, hne, hlen, Bool.false_or, decide_false, Bool.false_eq_true,
    if_false, List.reverse_reverse]

/-- Where there is a suffix, it is a dot and something without dots, and a name is before it. -/
theorem exists_of_suffixOf {cs : List Char} (h : suffixOf cs ≠ []) :
    ∃ front tail, front ≠ [] ∧ tail ≠ [] ∧ '.' ∉ tail ∧ cs = front ++ '.' :: tail := by
  have happ := List.takeWhile_append_dropWhile (p := (· ≠ '.')) (l := cs.reverse)
  have hdot : ∀ c ∈ cs.reverse.takeWhile (· ≠ '.'), c ≠ '.' :=
    fun c hc => by simpa using List.mem_takeWhile_imp hc
  have hrest := List.head?_dropWhile_not (· ≠ '.') cs.reverse
  rw [suffixOf] at h
  generalize cs.reverse.takeWhile (· ≠ '.') = back at h happ hdot
  generalize cs.reverse.dropWhile (· ≠ '.') = rest at happ hrest
  have hcs : cs = rest.reverse ++ back.reverse := by
    rw [← List.reverse_append, happ, List.reverse_reverse]
  split at h
  · exact absurd rfl h
  · next hc =>
    rw [Bool.or_eq_true, not_or, decide_eq_true_eq, Nat.not_le, hcs, List.length_append,
      List.length_reverse, List.length_reverse] at hc
    obtain ⟨hne, hlen⟩ := hc
    cases rest with
    | nil => exact absurd hlen (by simp)
    | cons c rest =>
      obtain rfl : c = '.' := by simpa using hrest
      refine ⟨rest.reverse, back.reverse, fun e => ?_, by simpa using hne,
        fun hm => hdot _ (List.mem_reverse.mp hm) rfl, by simpa using hcs⟩
      rw [List.reverse_eq_nil_iff.mp e, List.length_singleton] at hlen
      omega

end Files.Path

/-- A suffix is an extension iff this is of one piece and the name has it. -/
theorem suffix_eq_iff {extension : String} (hx : extension.toList.head? = some '.') {p : Path} :
    p.suffix = extension ↔ IsSingle extension ∧ HasExtension extension p := by
  rw [Path.suffix, ← String.toList_inj, String.toList_ofList, hasExtension_iff]
  constructor
  · intro h
    have hne : Path.suffixOf p.name.toList ≠ [] := by
      rw [h]
      intro he
      rw [he] at hx
      cases hx
    obtain ⟨front, tail, hf, ht, hd, hn⟩ := Path.exists_of_suffixOf hne
    rw [hn, Path.suffixOf_append ht hd hf] at h
    refine ⟨⟨hx, ?_, ?_⟩, String.ofList front, ?_, ?_⟩
    · rwa [← h]
    · rwa [← h]
    · rwa [Ne, String.ofList_eq_empty_iff]
    · rw [← String.toList_inj, String.toList_append, String.toList_ofList, ← h, hn]
  · rintro ⟨⟨-, ht, hd⟩, n, hn, he⟩
    have hcons : extension.toList = '.' :: extension.toList.tail := by
      obtain ⟨rest, hr⟩ := List.head?_eq_some_iff.mp hx
      rw [hr]
      rfl
    rw [he, String.toList_append, hcons]
    exact Path.suffixOf_append ht hd (by simpa using hn)

/-- No name on the way of a path has a zero in it. -/
def Askable (text : String) : Prop :=
  ∀ x ∈ (Path.ofString text).parts, '\x00' ∉ x.toList

instance (text : String) : Decidable (Askable text) :=
  inferInstanceAs (Decidable (∀ x ∈ _, _))

/-- Some file has a name with an extension, except where none can have it. -/
theorem isUnbearable_iff {extension : String} :
    IsUnbearable extension ↔
      ∀ text, Askable text → ¬ HasExtension extension (Path.ofString text) := by
  constructor
  · intro h text ha hn
    obtain ⟨n, hne, he⟩ := hasExtension_iff.mp hn
    have hmem {c : Char} (hc : c ∈ extension.toList) : c ∈ (Path.ofString text).name.toList := by
      rw [he, String.toList_append]
      exact List.mem_append_right _ hc
    have hp : (Path.ofString text).name ∈ (Path.ofString text).parts := by
      rw [Path.name, List.getLastD_eq_getLast?] at he ⊢
      cases hl : (Path.ofString text).parts.getLast? with
      | none =>
        rw [hl] at he
        exact absurd (String.append_eq_empty_iff.mp he.symm).1 hne
      | some x => exact List.mem_of_getLast? hl
    rcases h with h | h
    · have := Files.isPart_of_mem_namesIn hp
      simp only [Files.isPart, Bool.and_eq_true] at this
      exact absurd (hmem h) (by simpa using this.2)
    · exact ha _ hp (hmem h)
  · intro h
    by_contra hb
    rw [IsUnbearable, not_or] at hb
    have hl : ("a" ++ extension).toList = 'a' :: extension.toList := String.toList_append
    have hs : '/' ∉ ("a" ++ extension).toList := by
      rw [hl, List.mem_cons, not_or]
      exact ⟨by decide, hb.1⟩
    have hparts : (Path.ofString ("a" ++ extension)).parts = ["a" ++ extension] := by
      show Files.namesIn _ = _
      rw [Files.namesIn, Files.splitSlashes_of_not_mem hs]
      simp [hl]
    refine h ("a" ++ extension) ?_ ?_
    · intro x hx
      rw [hparts, List.mem_singleton] at hx
      rw [hx, hl, List.mem_cons, not_or]
      exact ⟨by decide, hb.2⟩
    · exact hasExtension_iff.mpr ⟨"a", by decide, by rw [Path.name, hparts]; rfl⟩

/-! ### The queue -/

/-- The queue after the files at some paths have been put in it. -/
def World.queueing (w : World) (texts : List String) : List Path :=
  (texts.map fun text => Path.resolve w.cwd (Path.ofString text)).foldl enqueue w.pending

theorem mem_enqueue {queue : List Path} {p q : Path} : q ∈ enqueue queue p ↔ q ∈ queue ∨ q = p := by
  unfold enqueue
  split
  · next h => exact ⟨.inl, fun h' => h'.elim id (· ▸ List.contains_iff_mem.mp h)⟩
  · simp

theorem mem_queueing {w : World} {texts : List String} {p : Path} :
    p ∈ w.queueing texts ↔
      p ∈ w.pending ∨ ∃ text ∈ texts, Path.resolve w.cwd (Path.ofString text) = p := by
  unfold World.queueing
  generalize w.pending = queue
  induction texts generalizing queue with
  | nil => simp
  | cons text rest ih =>
    rw [List.map_cons, List.foldl_cons, ih, mem_enqueue]
    simp [or_assoc, eq_comm]

/-- The files whose changes a watch is going to see, in order. -/
def World.changed (w : World) : List String :=
  w.application.changes.flatten.map Prod.snd

namespace Op

/-- An operation puts files in the queue, and else says something in the log. -/
def Queues (m : Op Unit) (texts : List String) : Prop :=
  ∀ w, m.outcome w = .ok () ∧ ∃ l, m.after w = { w with pending := w.queueing texts, log := l }

theorem Queues.bind {m : Op Unit} {k : Unit → Op Unit} {texts more : List String}
    (hm : m.Queues texts) (hk : (k ()).Queues more) : (m >>= k).Queues (texts ++ more) := by
  intro w
  obtain ⟨ho, l, ha⟩ := hm w
  obtain ⟨ho', l', ha'⟩ := hk (m.after w)
  refine ⟨(outcome_bind_of_ok ho k).trans ho', l', (after_bind_of_ok ho k).trans (ha'.trans ?_)⟩
  rw [ha]
  simp only [World.queueing, List.map_append, List.foldl_append]

theorem queues_pure : (pure () : Op Unit).Queues [] :=
  fun w => ⟨rfl, w.log, rfl⟩

theorem queues_log (level : LogLevel) (logger text : String) (fault : Option Fault) :
    (log level logger text fault).Queues [] :=
  fun _ => ⟨rfl, _, rfl⟩

theorem resolvePath_of_askable {text : String} (ht : Askable text) (w : World) :
    (resolvePath (Path.ofString text)).outcome w =
        .ok (Path.resolve w.cwd (Path.ofString text)) ∧
      (resolvePath (Path.ofString text)).after w = w := by
  have hz : (Path.ofString text).parts.any (·.toList.contains '\x00') = false := by
    rw [List.any_eq_false]
    intro x hx h
    exact ht x hx (List.contains_iff_mem.mp h)
  rw [resolvePath, hz]
  exact ⟨rfl, rfl⟩

theorem resolvePath_of_not_askable {text : String} (ht : ¬ Askable text) (w : World) :
    (resolvePath (Path.ofString text)).outcome w = .error (.nullInPath "lstat") ∧
      (resolvePath (Path.ofString text)).after w = w := by
  have hz : (Path.ofString text).parts.any (·.toList.contains '\x00') = true := by
    unfold Askable at ht
    push Not at ht
    obtain ⟨x, hx, hm⟩ := ht
    exact List.any_eq_true.2 ⟨x, hx, List.contains_iff_mem.2 hm⟩
  rw [resolvePath, hz]
  exact ⟨rfl, rfl⟩

theorem queues_queueReload {text : String} (ht : Askable text) : (queueReload text).Queues [text] := by
  intro w
  obtain ⟨ho, ha⟩ := resolvePath_of_askable ht w
  rw [queueReload, outcome_bind_of_ok ho, after_bind_of_ok ho, ha, outcome_get_bind,
    after_get_bind]
  have hq : w.queueing [text] = enqueue w.pending (Path.resolve w.cwd (Path.ofString text)) := rfl
  dsimp only
  rw [hq]
  by_cases h : w.pending.contains (Path.resolve w.cwd (Path.ofString text))
  · rw [if_pos h, enqueue, if_pos h]
    exact ⟨rfl, w.log, rfl⟩
  · rw [if_neg h]
    exact ⟨rfl, _, rfl⟩

theorem queues_takeChanges {extension : String} {changes : List (String × String)}
    (h : ∀ c ∈ changes, Askable c.2) :
    (takeChanges extension changes).Queues
      ((changes.map Prod.snd).filter fun text => (Path.ofString text).suffix = extension) := by
  induction changes with
  | nil => exact queues_pure
  | cons c rest ih =>
    obtain ⟨kind, text⟩ := c
    rw [List.forall_mem_cons] at h
    rw [List.map_cons, List.filter_cons]
    show (_ >>= fun _ => takeChanges extension rest).Queues _
    by_cases hs : (Path.ofString text).suffix = extension
    · rw [if_pos (by simpa using hs)]
      dsimp only
      rw [if_pos hs, bind_assoc]
      refine (queues_queueReload h.1).bind ?_
      exact Queues.bind (queues_log _ _ _ _) (ih h.2)
    · rw [if_neg (by simpa using hs)]
      dsimp only
      rw [if_neg hs]
      exact Queues.bind queues_pure (ih h.2)

theorem queues_watch {folder : Path} {extension : String}
    {batches : List (List (String × String))} (h : ∀ c ∈ batches.flatten, Askable c.2) :
    (watch folder extension batches).Queues
      ((batches.flatten.map Prod.snd).filter
        fun text => (Path.ofString text).suffix = extension) := by
  rw [← List.nil_append (List.filter _ _)]
  refine Queues.bind (queues_log _ _ _ _) ?_
  induction batches with
  | nil => exact queues_pure
  | cons changes rest ih =>
    rw [List.flatten_cons, List.forall_mem_append] at h
    rw [List.flatten_cons, List.map_append, List.filter_append]
    exact Queues.bind (queues_takeChanges h.1) (ih h.2)

/-- A watch that sees changes puts the files in the queue whose suffix is the extension. -/
theorem watchChanges_queues {w : World} (hw : w.application.watching.isSome)
    (h : ∀ text ∈ w.changed, Askable text) :
    watchChanges.outcome w = .ok () ∧ (watchChanges.after w).pending =
      w.queueing (w.changed.filter fun text =>
        (Path.ofString text).suffix = w.session.extension) := by
  obtain ⟨root, hr⟩ := Option.isSome_iff_exists.mp hw
  rw [watchChanges, outcome_get_bind, after_get_bind]
  dsimp only
  rw [hr]
  dsimp only
  rw [modifyApplication, outcome_modify_bind, after_modify_bind, outcome_get_bind, after_get_bind]
  have hc : ∀ c ∈ w.application.changes.flatten, Askable c.2 :=
    fun c hc => h _ (List.mem_map_of_mem hc)
  have hall : (watch root w.session.extension w.application.changes).Queues _ := queues_watch hc
  obtain ⟨ho, l, ha⟩ := hall { w with application := { w.application with watching := none } }
  exact ⟨ho, congrArg World.pending ha⟩

/-- A session takes an extension with a dot before it. -/
theorem extension_openSession (allowlist : List Settings.Value) (root : Option Path)
    (extension : String) (w : World) :
    (openSession allowlist root extension).outcome w = .ok () ∧
      ((openSession allowlist root extension).after w).session.extension = withDot extension := by
  let w₁ : World := { w with objects := w.objects.push (.callable listenFunction) }
  have hn : (newObject (.callable listenFunction)).outcome w = .ok w.objects.size ∧
    (newObject (.callable listenFunction)).after w = w₁ := ⟨rfl, rfl⟩
  rw [openSession, outcome_bind_of_ok hn.1, after_bind_of_ok hn.1, hn.2, outcome_get_bind,
    after_get_bind]
  obtain ⟨b, ho, -⟩ := run_addFunction "Bridge.ListenTo" (listenEntry w.objects.size) w₁
  by_cases ht : w₁.catalog.functions.contains "Bridge.ListenTo"
  · rw [if_neg (by simp [ht])]
    exact ⟨rfl, rfl⟩
  · rw [if_pos (by simp [ht]), discard_bind, outcome_bind_of_ok ho, after_bind_of_ok ho]
    exact ⟨rfl, rfl⟩

/-- A text tells of a path: it leads to the same place by the same name. -/
def Tells (cwd : Path) (text : String) (p : Path) : Prop :=
  (Path.ofString text).name = p.name ∧
    Path.resolve cwd (Path.ofString text) = Path.resolve cwd p

instance (cwd : Path) (text : String) (p : Path) : Decidable (Tells cwd text p) :=
  inferInstanceAs (Decidable (_ ∧ _))

/-- A file that is found under a plain name has the name that was looked for. -/
theorem name_of_find {w : World} {name : String} {p : Path}
    (hp : Files.IsPlain (name ++ w.session.extension).toList) (ht : w.files.all isName)
    (hf : (find name).outcome w = .ok (some p)) : p.name = name ++ w.session.extension := by
  have hlast : lastPiece (name ++ w.session.extension).toList =
      (name ++ w.session.extension).toList := by
    have hs : '/' ∉ (name ++ w.session.extension).toList := by
      simpa using Files.not_mem_of_isName hp.1
    rw [lastPiece, Files.splitSlashes_of_not_mem hs]
    rfl
  obtain ⟨root, steps, ps, -, hs, hps, hm⟩ := exists_of_find hf
  obtain ⟨names, rfl, hfit⟩ := Files.fits_of_mem_search ht hps hm
  obtain ⟨front, rfl, hstop⟩ := Files.exists_of_searchSteps_plain hs (hlast.symm ▸ hp)
  obtain ⟨more, rfl⟩ := Files.exists_of_fits_concat hstop hfit
  rw [hlast, String.ofList_toList, Path.name, Path.under, ← List.append_assoc,
    List.getLastD_concat]

/-- A watch with an extension is about to see changes of files. -/
structure IsWatching (extension : String) (w : World) : Prop where
  watching : w.application.watching.isSome
  extension : w.session.extension = extension
  askable : ∀ text ∈ w.changed, Askable text

/-- The scripts among some files, by their names. -/
def scriptsAmong (extension : String) (texts : List String) : List String :=
  texts.filter fun text => HasExtension extension (Path.ofString text)

/-- A watch queues all scripts whose changes it sees if the extension is of one piece, and nothing
if it is not. -/
theorem watchChanges_of_isWatching {extension : String} (hx : extension.toList.head? = some '.')
    {w : World} (hw : IsWatching extension w) :
    watchChanges.outcome w = .ok () ∧ (watchChanges.after w).pending =
      w.queueing (if IsSingle extension then scriptsAmong extension w.changed else []) := by
  obtain ⟨ho, ha⟩ := watchChanges_queues hw.watching hw.askable
  refine ⟨ho, ha.trans (congrArg w.queueing ?_)⟩
  rw [hw.extension]
  simp only [suffix_eq_iff hx]
  by_cases hs : IsSingle extension
  · simp [hs, scriptsAmong]
  · simp [hs]

/-- Whether a watch and a search agree on what a script is, for the extension that is meant by any
text. The watch queues, of each batch of changes, exactly the files that have a name with the
extension behind it, iff the extension is of one piece or no file can have it; else it queues
nothing. A file that is found under a plain name and has changed is queued iff it was, or the
extension is of one piece. -/
theorem watchChanges_agrees_iff (given : String) :
    (∀ allowlist root w,
      ((openSession allowlist root given).after w).session.extension = withDot given) ∧
    let extension := withDot given
    (∀ w, IsWatching extension w →
      watchChanges.outcome w = .ok () ∧ (watchChanges.after w).pending =
        w.queueing (if IsSingle extension then scriptsAmong extension w.changed else [])) ∧
    ((∀ w, IsWatching extension w →
      (watchChanges.after w).pending = w.queueing (scriptsAmong extension w.changed)) ↔
        IsSingle extension ∨ IsUnbearable extension) ∧
    ∀ w, IsWatching extension w → w.files.all isName → ∀ name p, name ≠ "" →
      Files.IsPlain (name ++ extension).toList → (find name).outcome w = .ok (some p) →
      (∃ text ∈ w.changed, Tells w.cwd text p) →
        (Path.resolve w.cwd p ∈ (watchChanges.after w).pending ↔
          Path.resolve w.cwd p ∈ w.pending ∨ IsSingle extension) := by
  refine ⟨fun allowlist root w => (extension_openSession allowlist root given w).2, ?_⟩
  intro extension
  have hx : extension.toList.head? = some '.' := head?_withDot given
  have run (w : World) (hw : IsWatching extension w) := watchChanges_of_isWatching hx hw
  refine ⟨run, ?_, ?_⟩
  · constructor
    · intro h
      rw [or_iff_not_imp_left]
      intro hs
      rw [isUnbearable_iff]
      intro text ha hn
      let w : World := {
        session := { extension }
        application := { watching := some ⟨"/", []⟩, changes := [[("modified", text)]] } }
      have hw : IsWatching extension w := ⟨rfl, rfl, by simpa [w, World.changed] using ha⟩
      have he : scriptsAmong extension w.changed = [text] := by
        simp [w, scriptsAmong, World.changed, hn]
      have hq := (run w hw).2.symm.trans (h w hw)
      rw [if_neg hs, he] at hq
      cases hq
    · rintro hs w hw
      rw [(run w hw).2]
      by_cases h : IsSingle extension
      · rw [if_pos h]
      · have hn := isUnbearable_iff.mp (hs.resolve_left h)
        rw [if_neg h, scriptsAmong, List.filter_eq_nil_iff.mpr]
        exact fun text ht => by simpa using hn text (hw.askable text ht)
  · rintro w hw hf name p hn hp hfound ⟨text, ht, htells⟩
    rw [(run w hw).2, mem_queueing]
    refine or_congr_right ⟨fun ⟨_, hm, _⟩ => ?_, fun hs => ⟨text, ?_, htells.2⟩⟩
    · by_contra hs
      rw [if_neg hs] at hm
      cases hm
    · rw [if_pos hs, scriptsAmong, List.mem_filter, decide_eq_true_eq]
      refine ⟨ht, hasExtension_iff.mpr ⟨name, hn, ?_⟩⟩
      rw [← hw.extension] at hp
      rw [htells.1, name_of_find hp hf hfound, hw.extension]

/-- A folder of scripts with one script in it, which has changed under a watch. -/
def edited (extension : String) : World where
  files := (default : Files.Node).put (.file (Text.encode "x = 1")) ["s", "a" ++ extension]
  session := { root := some ⟨"", ["s"]⟩, extension }
  application := {
    watching := some ⟨"", ["s"]⟩
    changes := [[("modified", "/s/a" ++ extension)]] }

/-- A script with an extension of one piece is found and queued. -/
theorem watchChanges_agrees_of_lua :
    (find "a").outcome (edited ".lua") = .ok (some ⟨"", ["s", "a.lua"]⟩) ∧
      ⟨"/", ["s", "a.lua"]⟩ ∈ (watchChanges.after (edited ".lua")).pending := by
  have hw : IsWatching ".lua" (edited ".lua") := ⟨rfl, rfl, by decide +kernel⟩
  have hf : (find "a").outcome (edited ".lua") = .ok (some ⟨"", ["s", "a.lua"]⟩) := by
    decide +kernel
  have h := (watchChanges_agrees_iff "lua").2.2.2 (edited ".lua") hw (by decide +kernel) "a" _
    (by decide) (by decide +kernel) hf ⟨"/s/a.lua", by decide +kernel, by decide +kernel⟩
  exact ⟨hf, h.mpr (.inr (by decide +kernel))⟩

/-- A script with an extension of two pieces is found, but no change of it is seen. -/
theorem not_queued_of_two_pieces :
    (find "a").outcome (edited ".script.lua") = .ok (some ⟨"", ["s", "a.script.lua"]⟩) ∧
      IsWatching ".script.lua" (edited ".script.lua") ∧
      Tells (edited ".script.lua").cwd "/s/a.script.lua" ⟨"", ["s", "a.script.lua"]⟩ ∧
      "/s/a.script.lua" ∈ (edited ".script.lua").changed ∧
      (watchChanges.after (edited ".script.lua")).pending = [] := by
  have hw : IsWatching ".script.lua" (edited ".script.lua") := ⟨rfl, rfl, by decide +kernel⟩
  exact ⟨by decide +kernel, hw, by decide +kernel, by decide +kernel, by decide +kernel⟩

end Op

end ScriptHost
