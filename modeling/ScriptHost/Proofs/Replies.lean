import ScriptHost.Application.Endpoint
import ScriptHost.Proofs.Containment
import ScriptHost.Proofs.Searches

/-!
# Lines of input are replied to

A line of input is to be answered with lines whatever it says, and a script that cannot be found is
to be one that is not loaded. Which lines are answered is told by `replies_iff`.
-/
namespace ScriptHost.Files

/-! ### Patterns that can be searched for -/

/-- Two stars in a row are a part of a pattern of their own. -/
def StarsApart (pattern : List Char) : Prop :=
  ∀ x ∈ namesIn pattern, hasStars x.toList → x = "**"

instance (pattern : List Char) : Decidable (StarsApart pattern) :=
  inferInstanceAs (Decidable (∀ x ∈ _, _))

theorem Step.isOk_ofString_iff {x : String} :
    (Step.ofString x).isOk ↔ (hasStars x.toList → x = "**") := by
  have hx : x.toList = ['*', '*'] ↔ x = "**" :=
    ⟨fun h => by rw [← String.ofList_toList (s := x), h], fun h => by rw [h]; rfl⟩
  simp only [Step.ofString]
  split
  · next he =>
    rw [List.isEmpty_iff.mp he]
    exact iff_of_true rfl fun h => absurd h Bool.false_ne_true
  · split
    · next hd => exact iff_of_true rfl fun _ => hx.mp hd
    · next hd =>
      split
      · next hs => exact iff_of_false Bool.false_ne_true fun h => hd (hx.mpr (h hs))
      · next hs =>
        refine iff_of_true ?_ fun h => absurd h hs
        split <;> rfl

/-- A pattern can be searched for iff it does not begin with a slash and has its stars apart. -/
theorem isOk_searchSteps_iff (pattern : String) :
    (searchSteps pattern).isOk ↔
      rootOf pattern.toList = "" ∧ StarsApart pattern.toList := by
  unfold searchSteps
  split
  · next h => exact iff_of_false Bool.false_ne_true fun h' => h h'.1
  · next h =>
    rw [ne_eq, not_not] at h
    have hm (parts : List String) :
        (do return .deep :: (← parts.mapM Step.ofString) : Except Fault (List Step)).isOk ↔
          ∀ x ∈ parts, hasStars x.toList → x = "**" := by
      refine Iff.trans ?_ (isOk_mapM_iff.trans (forall₂_congr fun _ _ => Step.isOk_ofString_iff))
      cases parts.mapM Step.ofString <;> rfl
    refine (hm _).trans ⟨fun h' => ⟨h, fun x hx => h' x ?_⟩, fun h' x hx => ?_⟩
    · split
      · exact List.mem_append_left _ hx
      · exact hx
    · split at hx
      · rcases List.mem_append.mp hx with hx | hx
        · exact h'.2 x hx
        · rw [List.mem_singleton.mp hx]
          exact nofun
      · exact h'.2 x hx

end ScriptHost.Files

namespace ScriptHost.Op

open Files (Path)

variable {host : Responder} {w : World}

/-! ### Looking for a script -/

/-- A pattern can be searched for below a folder: it does not begin with a slash, has its stars
apart, and asks for no path that is too long. -/
structure CanSearch (pattern : String) (root : Path) (w : World) : Prop where
  relative : Files.rootOf pattern.toList = ""
  apart : Files.StarsApart pattern.toList
  clear : ∀ steps, Files.searchSteps pattern = .ok steps → Files.Clear w.files w.cwd steps root

/-- Nothing fails while a script of a name is looked for. -/
structure CanFind (name : String) (w : World) : Prop where
  /-- It can be told whether there is a folder of scripts. -/
  asked : ∀ root, w.session.root = some root → (Files.look w.files w.cwd root).isOk
  searched : ∀ root es, w.session.root = some root →
    Files.look w.files w.cwd root = .ok (some (.folder es)) →
      CanSearch (name ++ w.session.extension) root w

theorem canSearch_iff {pattern : String} {root : Path} :
    (do let steps ← Files.searchSteps pattern
        return Files.leastPath (← Files.search w.files w.cwd steps root)).isOk ↔
      CanSearch pattern root w := by
  have hs := Files.isOk_searchSteps_iff pattern
  cases he : Files.searchSteps pattern with
  | error f =>
    rw [he] at hs
    exact iff_of_false Bool.false_ne_true fun h =>
      Bool.false_ne_true (hs.mpr ⟨h.relative, h.apart⟩)
  | ok steps =>
    rw [he] at hs
    obtain ⟨hr, ha⟩ := hs.mp rfl
    have hc : (do return Files.leastPath (← Files.search w.files w.cwd steps root) :
        Except Fault (Option Path)).isOk ↔ Files.Clear w.files w.cwd steps root := by
      rw [← Files.isOk_search_iff]
      cases Files.search w.files w.cwd steps root <;> rfl
    refine hc.trans ⟨fun h => ⟨hr, ha, fun steps' he' => ?_⟩, fun h => h.clear steps he⟩
    obtain rfl := Except.ok.inj (he.symm.trans he')
    exact h

theorem ends_find_iff {name : String} : (find name).Ends w ↔ CanFind name w := by
  rw [Ends, outcome_find]
  cases hr : w.session.root with
  | none =>
    refine iff_of_true rfl ⟨fun root h => ?_, fun root es h => ?_⟩ <;> cases hr.symm.trans h
  | some root =>
    have only {root' : Path} (h : w.session.root = some root') : root = root' :=
      Option.some.inj (hr.symm.trans h)
    dsimp only
    cases hl : Files.look w.files w.cwd root with
    | error f =>
      refine iff_of_false Bool.false_ne_true fun h => ?_
      have := h.asked root hr
      rw [hl] at this
      cases this
    | ok found =>
      have asked : ∀ root', w.session.root = some root' →
          (Files.look w.files w.cwd root').isOk := by
        rintro root' h
        obtain rfl := only h
        rw [hl]
        rfl
      have other (hn : ∀ es, found ≠ some (.folder es)) : CanFind name w := by
        refine ⟨asked, fun root' es h hl' => ?_⟩
        obtain rfl := only h
        exact absurd (Except.ok.inj (hl.symm.trans hl')) (hn es)
      obtain _ | _ | es := found
      · exact iff_of_true rfl (other fun es h => by cases h)
      · exact iff_of_true rfl (other fun es h => by cases h)
      · refine canSearch_iff.trans ⟨fun h => ⟨asked, fun root' _ h' _ => ?_⟩,
          fun h => h.searched root es hr hl⟩
        obtain rfl := only h'
        exact h

/-- The names in the tree, in the paths of the session and in a pattern are not too long. -/
structure Short (pattern : String) (root : Path) (w : World) : Prop where
  files : w.files.all Files.isShort
  cwd : ∀ x ∈ w.cwd.parts, Files.isShort x
  root : ∀ x ∈ root.parts, Files.isShort x
  pattern : ∀ x ∈ Files.namesIn pattern.toList, Files.isShort x

/-- Where no name is too long, only the form of a pattern matters. -/
theorem Short.canSearch_iff {pattern : String} {root : Path} (h : Short pattern root w) :
    CanSearch pattern root w ↔
      Files.rootOf pattern.toList = "" ∧ Files.StarsApart pattern.toList := by
  refine ⟨fun hc => ⟨hc.relative, hc.apart⟩, fun ⟨hr, ha⟩ => ⟨hr, ha, fun steps hs => ?_⟩⟩
  exact Files.clear_of_short h.files h.cwd
    (fun x hx => h.pattern x (Files.mem_namesIn_of_named_mem hs hx)) h.root

/-- Nothing fails while a script of a name is looked for and loaded. -/
structure CanTryLoad (host : Responder) (name : String) (w : World) : Prop where
  found : CanFind name w
  loaded : ∀ p, (find name).outcome w = .ok (some p) →
    CanLoad host (Path.ofString p.toString) w

theorem ends_tryLoad_iff {name : String} :
    (tryLoad host name).Ends w ↔ CanTryLoad host name w := by
  refine ends_bind_iff.trans ⟨fun ⟨found, ho, he⟩ => ?_, fun h => ?_⟩
  · refine ⟨ends_find_iff.mp (ends_iff.mpr ⟨found, ho⟩), fun p hp => ?_⟩
    obtain rfl := Except.ok.inj (ho.symm.trans hp)
    rw [after_find_of_some hp] at he
    exact (ends_load_iff host _ w).mp he
  · obtain ⟨found, ho⟩ := ends_iff.mp (ends_find_iff.mpr h.found)
    refine ⟨found, ho, ?_⟩
    cases found with
    | none => rfl
    | some p =>
      rw [after_find_of_some ho]
      exact (ends_load_iff host _ w).mpr (h.loaded p ho)

/-! ### Replies -/

/-- An operation ends in a new list of lines. -/
def Replies (m : Op Datum) (w : World) : Prop :=
  ∃ (place : Nat) (lines : List String), m.outcome w = .ok (.object place) ∧
    (m.after w).objects[place]? = some (.list (lines.map .text))

theorem replies_newTexts (lines : List String) (w : World) : Replies (newTexts lines) w :=
  ⟨w.objects.size, lines, rfl, Array.getElem?_push_size⟩

theorem replies_get_bind {k : World → Op Datum} : Replies (get >>= k) w ↔ Replies (k w) w :=
  Iff.rfl

/-- Lines that are found are replied. -/
theorem replies_bind_newTexts_iff {m : Op (List String)} :
    Replies (do newTexts (← m)) w ↔ m.Ends w := by
  refine ⟨fun ⟨place, lines, ho, _⟩ => ?_, fun h => ?_⟩
  · obtain ⟨found, hf, -⟩ := exists_of_bind_ok ho
    exact ends_iff.mpr ⟨found, hf⟩
  · obtain ⟨found, hf⟩ := ends_iff.mp h
    unfold Replies
    rw [outcome_bind_of_ok hf, after_bind_of_ok hf]
    exact replies_newTexts found (m.after w)

/-- The world in which a command is run. -/
def commanded (author name given : String) (w : World) : World :=
  (info "luahost.commands" s!"Command from {author}: {name} {given}").after w

/-- What a line asks for does not fail: the function that takes the chat, or what the command
does. -/
def CanReply (host : Responder) (line author : String) (w : World) : Prop :=
  match Control.CommandLine.read w.commands.lead line with
  | .blank | .bare _ => True
  | .chat text => ∀ place, w.commands.chat = some place →
      (callObject host place [.text author, .text text]).Ends w
  | .command _ name given =>
    match w.commands.handlers.find? name with
    | none => True
    | some (.core .load) => Text.strip given ≠ "" →
        CanTryLoad host (Text.strip given) (commanded author name given w)
    | some (.core .unload) => w.session.loaded = true →
        CanUnload host (commanded author name given w)
    | some (.core _) => True
    | some (.foreign place) =>
        Replies (callObject host place [.text given]) (commanded author name given w)

theorem ends_shownPath (w : World) : shownPath.Ends w := by
  show Op.Ends (get >>= _) w
  rw [Ends, outcome_get_bind]
  cases w.session.path <;> rfl

theorem ends_runCore_load_iff {lead given : String} :
    (runCore host lead .load given).Ends w ↔
      (Text.strip given ≠ "" → CanTryLoad host (Text.strip given) w) := by
  rw [← ends_tryLoad_iff]
  show (if _ then _ else _ : Op (List String)).Ends w ↔ _
  split
  · next h => exact iff_of_true rfl fun h' => absurd h h'
  · next h =>
    refine ends_bind_iff.trans ⟨fun ⟨_, ho, _⟩ _ => ends_iff.mpr ⟨_, ho⟩, fun he => ?_⟩
    obtain ⟨loaded, ho⟩ := ends_iff.mp (he h)
    refine ⟨loaded, ho, ?_⟩
    cases loaded with
    | false => rfl
    | true =>
      obtain ⟨shown, hs⟩ := ends_iff.mp (ends_shownPath ((tryLoad host (Text.strip given)).after w))
      exact ends_bind_iff.mpr ⟨shown, hs, rfl⟩

theorem ends_runCore_unload_iff {lead given : String} :
    (runCore host lead .unload given).Ends w ↔ (w.session.loaded = true → CanUnload host w) := by
  have hu : (runCore host lead .unload given).Ends w ↔ (unload host).Ends w := by
    show Op.Ends (get >>= _) w ↔ _
    rw [Ends, outcome_get_bind]
    exact ends_bind_iff.trans ⟨fun he => ends_iff.mpr (he.imp fun _ ho => ho.1),
      fun he => (ends_iff.mp he).imp fun _ ho => ⟨ho, rfl⟩⟩
  rw [hu]
  cases hl : w.session.loaded with
  | false =>
    refine iff_of_true ?_ fun h => absurd h Bool.false_ne_true
    rw [Ends, (unload_of_not_loaded host hl).1]
    rfl
  | true => exact (ends_unload_iff hl).trans ⟨fun h _ => h, fun h => h rfl⟩

theorem ends_runCore (command : CoreCommand) (hl : command ≠ .load) (hu : command ≠ .unload)
    (lead given : String) (w : World) : (runCore host lead command given).Ends w := by
  cases command with
  | load => exact absurd rfl hl
  | unload => exact absurd rfl hu
  | help => rfl
  | events => rfl
  | status =>
    show Op.Ends (get >>= _) w
    rw [Ends, outcome_get_bind]
    cases w.session.loaded with
    | false => rfl
    | true =>
      refine ends_bind_iff.mpr ⟨w, rfl, ?_⟩
      obtain ⟨shown, hs⟩ := ends_iff.mp (ends_shownPath w)
      exact ends_bind_iff.mpr ⟨shown, hs, rfl⟩

/-- A line of input is replied to iff what it asks for does not fail. -/
theorem replies_runCommandLine_iff {line author : String} :
    Replies (runCommandLine host line author) w ↔ CanReply host line author w := by
  unfold CanReply
  refine replies_get_bind.trans ?_
  dsimp only
  cases Control.CommandLine.read w.commands.lead line with
  | blank => exact iff_of_true (replies_newTexts [] w) trivial
  | bare lead => exact iff_of_true (replies_newTexts _ w) trivial
  | chat text =>
    dsimp only
    cases w.commands.chat with
    | none => exact iff_of_true (replies_newTexts [] w) fun _ he => by cases he
    | some place =>
      refine Iff.trans ?_ ((ends_discard_iff (m := callObject host place _)).trans
        ⟨fun h _ he => Option.some.inj he ▸ h, fun h => h place rfl⟩)
      refine ⟨fun ⟨_, _, ho, _⟩ => ?_, fun h => ?_⟩
      · obtain ⟨_, ho, -⟩ := exists_of_bind_ok ho
        exact ends_iff.mpr ⟨_, ho⟩
      · obtain ⟨_, ho⟩ := ends_iff.mp h
        unfold Replies
        rw [outcome_bind_of_ok ho, after_bind_of_ok ho]
        exact replies_newTexts [] _
  | command lead name given =>
    dsimp only
    show Replies _ (commanded author name given w) ↔ _
    cases w.commands.handlers.find? name with
    | none => exact iff_of_true (replies_newTexts _ _) trivial
    | some handler =>
      cases handler with
      | foreign place => exact Iff.rfl
      | core command =>
        refine replies_bind_newTexts_iff.trans ?_
        cases command with
        | load => exact ends_runCore_load_iff
        | unload => exact ends_runCore_unload_iff
        | status => exact iff_of_true (ends_runCore .status nofun nofun lead given _) trivial
        | events => exact iff_of_true (ends_runCore .events nofun nofun lead given _) trivial
        | help => exact iff_of_true (ends_runCore .help nofun nofun lead given _) trivial

/-! ### A script that is not found -/

/-- Whether a script is found is not told by the log. -/
theorem outcome_find_log (name : String) (l : Array LogEntry) :
    (find name).outcome { w with log := l } = (find name).outcome w := by
  rw [outcome_find, outcome_find]

theorem exists_after_find (name : String) (w : World) :
    ∃ l, (find name).after w = { w with log := l } :=
  (looksOnly_find name w).elim (fun h => ⟨w.log, h⟩) fun ⟨l, h, _⟩ => ⟨l, h⟩

/-- Where no script is found, none is loaded and all stays as it is. -/
theorem exists_tryLoad_of_none (host : Responder) {name : String}
    (h : (find name).outcome w = .ok none) :
    ∃ l, (tryLoad host name).outcome w = .ok false ∧
      (tryLoad host name).after w = { w with log := l } := by
  obtain ⟨l, ha⟩ := exists_after_find name w
  exact ⟨_, outcome_bind_of_ok h _, (after_bind_of_ok h _).trans (.trans (congrArg _ ha) rfl)⟩

theorem exists_tryLoad_of_error (host : Responder) {name : String} {f : Fault}
    (h : (find name).outcome w = .error f) :
    ∃ l, (tryLoad host name).outcome w = .error f ∧
      (tryLoad host name).after w = { w with log := l } := by
  obtain ⟨l, ha⟩ := exists_after_find name w
  exact ⟨l, outcome_bind_of_error h _, (after_bind_of_error h _).trans ha⟩

/-- The reply for a name under which no script has been loaded. -/
def notLoaded (name : String) : String :=
  s!"Script '{name}' was not loaded. See the log for details."

/-- A command to load a script that is not found says so. -/
theorem exists_runCore_of_none (host : Responder) (lead : String) {given : String}
    (hg : Text.strip given ≠ "") (h : (find (Text.strip given)).outcome w = .ok none) :
    ∃ l, (runCore host lead .load given).outcome w = .ok [notLoaded (Text.strip given)] ∧
      (runCore host lead .load given).after w = { w with log := l } := by
  obtain ⟨l, ho, ha⟩ := exists_tryLoad_of_none host h
  refine ⟨l, ?_⟩
  show Op.outcome (if _ then _ else _) w = _ ∧ Op.after (if _ then _ else _) w = _
  rw [if_neg hg]
  exact ⟨outcome_bind_of_ok ho _, (after_bind_of_ok ho _).trans ha⟩

theorem exists_runCore_of_error (host : Responder) (lead : String) {given : String} {f : Fault}
    (hg : Text.strip given ≠ "") (h : (find (Text.strip given)).outcome w = .error f) :
    ∃ l, (runCore host lead .load given).outcome w = .error f ∧
      (runCore host lead .load given).after w = { w with log := l } := by
  obtain ⟨l, ho, ha⟩ := exists_tryLoad_of_error host h
  refine ⟨l, ?_⟩
  show Op.outcome (if _ then _ else _) w = _ ∧ Op.after (if _ then _ else _) w = _
  rw [if_neg hg]
  exact ⟨outcome_bind_of_error ho _, (after_bind_of_error ho _).trans ha⟩

section
variable {line lead name given : String}
  (hr : Control.CommandLine.read w.commands.lead line = .command lead name given)
  (hc : w.commands.handlers.find? name = some (.core .load))
include hr hc

/-- A line that asks for a script runs the command to load it. -/
theorem runCommandLine_load (host : Responder) (author : String) :
    (runCommandLine host line author).outcome w =
        (do newTexts (← runCore host lead .load given) : Op Datum).outcome
          (commanded author name given w) ∧
      (runCommandLine host line author).after w =
        (do newTexts (← runCore host lead .load given) : Op Datum).after
          (commanded author name given w) := by
  show Op.outcome (get >>= _) w = _ ∧ Op.after (get >>= _) w = _
  rw [outcome_get_bind, after_get_bind]
  simp only [hr, hc]
  exact ⟨outcome_bind_of_ok rfl _, after_bind_of_ok rfl _⟩

/-- A script that is not found is one that is not loaded, and the rest stays as it is. -/
theorem exists_runCommandLine_of_none (host : Responder) (author : String)
    (hg : Text.strip given ≠ "") (h : (find (Text.strip given)).outcome w = .ok none) :
    ∃ l, (runCommandLine host line author).outcome w = .ok (.object w.objects.size) ∧
      (runCommandLine host line author).after w = { w with
        log := l
        objects := w.objects.push (.list [.text (notLoaded (Text.strip given))]) } := by
  obtain ⟨ho, ha⟩ := runCommandLine_load hr hc host author
  have hf : (find (Text.strip given)).outcome (commanded author name given w) = .ok none :=
    (outcome_find_log _ _).trans h
  obtain ⟨l, hro, hra⟩ := exists_runCore_of_none host lead hg hf
  refine ⟨l, ?_, ?_⟩
  · rw [ho, outcome_bind_of_ok hro, hra]
    rfl
  · rw [ha, after_bind_of_ok hro, hra]
    rfl

/-- A fault that a name causes goes through, and all stays as it is. -/
theorem exists_runCommandLine_of_error (host : Responder) (author : String)
    (hg : Text.strip given ≠ "") {f : Fault} (h : (find (Text.strip given)).outcome w = .error f) :
    ∃ l, (runCommandLine host line author).outcome w = .error f ∧
      (runCommandLine host line author).after w = { w with log := l } := by
  obtain ⟨ho, ha⟩ := runCommandLine_load hr hc host author
  have hf : (find (Text.strip given)).outcome (commanded author name given w) = .error f :=
    (outcome_find_log _ _).trans h
  obtain ⟨l, hro, hra⟩ := exists_runCore_of_error host lead hg hf
  refine ⟨l, ?_, ?_⟩
  · rw [ho, outcome_bind_of_error hro]
  · rw [ha, after_bind_of_error hro, hra]
    rfl

end

/-! ### Another process -/

theorem ends_status (w : World) : status.Ends w :=
  rfl

/-- A script that another process asks for by its name is looked for once the host can be found and
there is a name. -/
theorem serve_load (host : Responder) (name : String) (w : World) :
    (w.application.reachable = false →
      (serve host (.load (some name) none)).outcome w = .error (.refused 503 "Host not ready")) ∧
    (w.application.reachable = true → name = "" →
      (serve host (.load (some name) none)).outcome w =
        .error (.refused 400 "Either name or path is required")) ∧
    (w.application.reachable = true → name ≠ "" →
      ((serve host (.load (some name) none)).Ends w ↔ CanTryLoad host name w)) := by
  have hs : serve host (.load (some name) none) = get >>= fun w =>
      if !w.application.reachable then throw (.refused 503 "Host not ready")
      else if name = "" then throw (.refused 400 "Either name or path is required")
      else discard (tryLoad host name) >>= fun _ => status := by
    refine congrArg (get >>= ·) (funext fun w => ?_)
    dsimp only [Option.getD]
    cases w.application.reachable with
    | false => rfl
    | true =>
      by_cases he : name = ""
      · subst he
        rfl
      · rw [if_neg (by decide), if_neg (by decide), if_neg he]
        split
        · next h => exact absurd h he
        · rfl
        · next h _ => exact absurd rfl h
  refine ⟨fun hn => ?_, fun hy he => ?_, fun hy he => ?_⟩
  · rw [hs, outcome_get_bind, hn]
    rfl
  · rw [hs, outcome_get_bind, hy, if_neg (by decide), if_pos he]
    rfl
  · rw [hs, Ends, outcome_get_bind, hy, if_neg (by decide), if_neg he, discard_bind,
      ← ends_tryLoad_iff]
    exact ends_bind_iff.trans ⟨fun h => ends_iff.mpr (h.imp fun _ ho => ho.1),
      fun h => (ends_iff.mp h).imp fun _ ho => ⟨ho, ends_status _⟩⟩

/-- Which lines of input are replied to: those whose chat is taken, whose command is not registered
by others or replies itself, and those that unload or load a script where nothing fails that is not
guarded, which for a load includes that its name makes a pattern that can be searched for. The same
holds for a name from another process. A script that is not found is one that is not loaded, and
neither that nor a name that makes no pattern changes anything but the log. -/
theorem replies_iff (host : Responder) (line author : String) (w : World) :
    (Replies (runCommandLine host line author) w ↔ CanReply host line author w) ∧
    (∀ name, (w.application.reachable = false →
        (serve host (.load (some name) none)).outcome w =
          .error (.refused 503 "Host not ready")) ∧
      (w.application.reachable = true → name = "" →
        (serve host (.load (some name) none)).outcome w =
          .error (.refused 400 "Either name or path is required")) ∧
      (w.application.reachable = true → name ≠ "" →
        ((serve host (.load (some name) none)).Ends w ↔ CanTryLoad host name w))) ∧
    (∀ pattern root, Short pattern root w → (CanSearch pattern root w ↔
      Files.rootOf pattern.toList = "" ∧ Files.StarsApart pattern.toList)) ∧
    ∀ lead name given, Control.CommandLine.read w.commands.lead line = .command lead name given →
      w.commands.handlers.find? name = some (.core .load) → Text.strip given ≠ "" →
        ((find (Text.strip given)).outcome w = .ok none →
          ∃ l, (runCommandLine host line author).outcome w = .ok (.object w.objects.size) ∧
            (runCommandLine host line author).after w = { w with
              log := l
              objects := w.objects.push (.list [.text (notLoaded (Text.strip given))]) }) ∧
        ∀ f, (find (Text.strip given)).outcome w = .error f →
          ∃ l, (runCommandLine host line author).outcome w = .error f ∧
            (runCommandLine host line author).after w = { w with log := l } :=
  ⟨replies_runCommandLine_iff, fun name => serve_load host name w, fun _ _ => Short.canSearch_iff,
    fun _ _ _ hr hc hg => ⟨exists_runCommandLine_of_none hr hc host author hg,
      fun _ => exists_runCommandLine_of_error hr hc host author hg⟩⟩

/-- A host with a folder of scripts. -/
def furnished : World where
  files := (default : Files.Node).put (.file (Text.encode "x = 1")) ["s", "a.lua"]
  session := { root := some ⟨"", ["s"]⟩, extension := ".lua" }
  commands := Commands.start (some "lua") none

/-- A name that begins with a slash makes no pattern, and the fault goes through. -/
theorem not_replies_of_slash :
    ¬ Replies (runCommandLine (respond 5) "lua load /a" "host") furnished := by
  rintro ⟨place, lines, ho, -⟩
  have he : (runCommandLine (respond 5) "lua load /a" "host").outcome furnished =
      .error .patternAbsolute := by decide +kernel
  cases he.symm.trans ho

end ScriptHost.Op
