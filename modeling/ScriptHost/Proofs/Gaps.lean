import Mathlib
import ScriptHost.Application.Host
import ScriptHost.Proofs.Overlays

/-!
# Gaps in the settings of a host

Making a host reads a plan from its settings, and then carries it out; only the first can fail
(`openHost_eq`). So what a file leaves empty matters only as far as the plan reads it. It makes none of
the difference that leaving out its key does not make too, except in three places of sections that are
read without a thought for it: the root and the extension of scripts, and the word for commands
(`madeAlike_iff`).
-/
namespace ScriptHost

open Settings
open Files (Path)

/-! ### What a host is made of -/

/-- What settings say a host is made of. -/
structure Plan where
  name : Value
  root : Path
  allowlist : List Value
  extension : String
  lead : Option String

namespace Plan

/-- The path that a setting says. -/
def path : Value → Except Fault Path
  | .text s => .ok (Path.ofString s)
  | .bytes _ => .error (.mismatch .pathOfBytes)
  | v => .error (.mismatch (.path v.shortTypeName))

/-- The extension that a setting says. -/
def extensionText : Value → Except Fault String
  | .text s => .ok s
  | .bytes _ => .error (.mismatch .frontOfBytes)
  | v => .error (.noAttribute v.typeName "startswith")

/-- The names that a setting allows. -/
def names (v : Value) : Except Fault (List Value) :=
  if v.truthy then v.items else .ok []

/-- The word for commands that a setting says. -/
def word : Value → Option String
  | .text s => some s
  | _ => none

/-- What settings say a host is made of, or the first thing that is wrong with them. -/
def ofSettings (es : Entries) : Except Fault Plan := do
  let scripts := sectionOf es "scripts"
  let root ← scripts.field "root" >>= path
  let allowlist ← names <$> (sectionOf es "lua").fieldOr "stdlib" .null
  let extension ← scripts.fieldOr "extension" (.text ".lua") >>= extensionText
  let allowlist ← allowlist
  let lead ← (sectionOf es "commands").fieldOr "prefix" (.text "lua")
  return ⟨sectionOf es "name", root, allowlist, extension, word lead⟩

/-- A plan says what is read of settings. -/
theorem exists_of_ofSettings_ok {es : Entries} {p : Plan} (h : ofSettings es = .ok p) :
    p.name = sectionOf es "name" ∧ ∃ root stdlib extension lead,
      (sectionOf es "scripts").field "root" = .ok root ∧ path root = .ok p.root ∧
      (sectionOf es "lua").fieldOr "stdlib" .null = .ok stdlib ∧
      (sectionOf es "scripts").fieldOr "extension" (.text ".lua") = .ok extension ∧
      extensionText extension = .ok p.extension ∧ names stdlib = .ok p.allowlist ∧
      (sectionOf es "commands").fieldOr "prefix" (.text "lua") = .ok lead ∧ word lead = p.lead := by
  obtain ⟨_, hpath, h⟩ := exists_of_except_bind h
  obtain ⟨root, hroot, hpath⟩ := exists_of_except_bind hpath
  obtain ⟨_, hnames, h⟩ := exists_of_except_bind h
  obtain ⟨stdlib, hstdlib, rfl⟩ := exists_of_except_map hnames
  obtain ⟨text, htext, h⟩ := exists_of_except_bind h
  obtain ⟨extension, hextension, htext⟩ := exists_of_except_bind htext
  obtain ⟨allowlist, hallowlist, h⟩ := exists_of_except_bind h
  obtain ⟨lead, hlead, h⟩ := exists_of_except_bind h
  cases h
  exact ⟨rfl, _, _, _, _, hroot, hpath, hstdlib, hextension, htext, hallowlist, hlead, rfl⟩

end Plan

namespace World

/-- The world with another application. -/
def withApplication (w : World) (a : Application) : World :=
  { w with application := a }

variable (w : World) (a : Application)

@[simp] theorem spell_withApplication : (w.withApplication a).spell = w.spell := by
  have h (n : Nat) (d : Datum) : (w.withApplication a).spellWithin n d = w.spellWithin n d := by
    delta spellWithin
    rfl
  exact funext fun d => h shownDepth d

end World

namespace Op

variable {α β : Type} {es : Entries} {p : Plan}

/-- An operation that never fails and has nothing to do with the application. -/
def Detached (m : Op α) : Prop :=
  ∀ w, ∃ x, ∀ a, m.outcome (w.withApplication a) = .ok x ∧
    m.after (w.withApplication a) = (m.after w).withApplication a

theorem Detached.exists_outcome {m : Op α} (hm : Detached m) (w : World) :
    ∃ x, m.outcome w = .ok x ∧ ∀ a, m.outcome (w.withApplication a) = .ok x := by
  obtain ⟨x, h⟩ := hm w
  exact ⟨x, (h w.application).1, fun a => (h a).1⟩

theorem Detached.after_withApplication {m : Op α} (hm : Detached m) (w : World) (a : Application) :
    m.after (w.withApplication a) = (m.after w).withApplication a :=
  ((hm w).choose_spec a).2

theorem Detached.application {m : Op α} (hm : Detached m) (w : World) :
    (m.after w).application = w.application :=
  (congrArg World.application (hm.after_withApplication w w.application) :)

theorem detached_pure (x : α) : Detached (pure x) :=
  fun _ => ⟨x, fun _ => ⟨rfl, rfl⟩⟩

theorem detached_newObject (o : Object) : Detached (newObject o) :=
  fun w => ⟨w.objects.size, fun _ => ⟨rfl, rfl⟩⟩

theorem detached_modify {f : World → World}
    (hf : ∀ w a, f (w.withApplication a) = (f w).withApplication a) :
    Detached (modify f : Op PUnit) :=
  fun w => ⟨⟨⟩, fun a => ⟨rfl, hf w a⟩⟩

theorem Detached.bind {m : Op α} {k : α → Op β} (hm : Detached m) (hk : ∀ x, Detached (k x)) :
    Detached (m >>= k) := by
  intro w
  obtain ⟨x, hw, hx⟩ := hm.exists_outcome w
  obtain ⟨y, hy⟩ := hk x (m.after w)
  refine ⟨y, fun a => ?_⟩
  rw [outcome_bind_of_ok (hx a), after_bind_of_ok (hx a), after_bind_of_ok hw,
    hm.after_withApplication]
  exact hy a

theorem Detached.map {m : Op α} (hm : Detached m) (f : α → β) : Detached (f <$> m) := by
  rw [map_eq_pure_bind]
  exact hm.bind fun _ => detached_pure _

theorem detached_get {k : World → Op β} (hk : ∀ w a, k (World.withApplication w a) = k w)
    (h : ∀ w, Detached (k w)) : Detached (get >>= k) := by
  intro w
  obtain ⟨x, hx⟩ := h w w
  refine ⟨x, fun a => ?_⟩
  rw [outcome_get_bind, after_get_bind, after_get_bind, hk]
  exact hx a

mutual

theorem detached_ofSetting (v : Value) : Detached (ofSetting v) := by
  cases v with
  | bytes _ | date _ | moment _ => exact (detached_newObject _).map _
  | pair k v =>
    unfold ofSetting
    exact (detached_ofSetting k).bind fun _ => (detached_ofSetting v).bind fun _ =>
      (detached_newObject _).bind fun _ => detached_pure _
  | set items =>
    unfold ofSetting
    refine (detached_ofSettings items).bind fun _ => detached_get (fun w a => ?_) fun _ =>
      (detached_newObject _).bind fun _ => detached_pure _
    simp only [World.spell_withApplication]
  | list items =>
    unfold ofSetting
    exact (detached_ofSettings items).bind fun _ => (detached_newObject _).map _
  | map entries =>
    unfold ofSetting
    exact (detached_ofEntries entries).bind fun _ =>
      (detached_newObject _).bind fun _ => detached_pure _
  | _ =>
    unfold ofSetting
    exact detached_pure _

theorem detached_ofSettings (vs : List Value) : Detached (ofSettings vs) := by
  cases vs with
  | nil =>
    unfold ofSettings
    exact detached_pure _
  | cons v rest =>
    unfold ofSettings
    exact (detached_ofSetting v).bind fun _ => (detached_ofSettings rest).bind fun _ =>
      detached_pure _

theorem detached_ofEntries (es : List (Value × Value)) :
    Detached (ofEntries es) := by
  cases es with
  | nil =>
    unfold ofEntries
    exact detached_pure _
  | cons e rest =>
    obtain ⟨k, v⟩ := e
    unfold ofEntries
    exact (detached_ofSetting k).bind fun _ => (detached_ofSetting v).bind fun _ =>
      (detached_ofEntries rest).bind fun _ => detached_pure _

end

theorem detached_addFunction (ident : String) (make : FunctionFactory) :
    Detached (addFunction ident make) := by
  refine detached_get (fun _ _ => rfl) fun w => ?_
  split
  · exact Detached.bind (detached_modify fun _ _ => rfl) fun _ => detached_pure _
  · exact Detached.bind (detached_modify fun _ _ => rfl) fun _ => detached_pure _

theorem detached_openSession (allowlist : List Value) (root : Option Path)
    (extension : String) : Detached (openSession allowlist root extension) := by
  refine (detached_newObject _).bind fun listen => detached_get (fun _ _ => rfl) fun w => ?_
  by_cases hnew : !w.catalog.functions.contains "Bridge.ListenTo"
  · rw [if_pos hnew, discard_bind]
    exact (detached_addFunction _ _).bind fun _ => detached_modify fun _ _ => rfl
  · rw [if_neg hnew]
    exact detached_modify fun _ _ => rfl

/-- Begins to take commands by a word, and what is said in the chat. -/
def takeCommands (lead : Option String) : Op Unit := do
  let chat ← newObject (.callable chatFunction)
  modify fun w => { w with
    signals := (w.signals.add "tick" []).add "message" []
    commands := Commands.start lead (some chat)
    classes := (chatMessage, { fields := ["author", "text"], showsFields := true }) :: w.classes }

/-- Prepares the session and the commands that a plan says. -/
def prepare (p : Plan) : Op Unit := do
  openSession p.allowlist (some ((← get).base.join p.root)) p.extension
  takeCommands p.lead

theorem detached_prepare (p : Plan) : Detached (prepare p) :=
  detached_get (fun _ _ => rfl) fun _ => (detached_openSession _ _ _).bind fun _ =>
    (detached_newObject _).bind fun _ => detached_modify fun _ _ => rfl

theorem lead_prepare (p : Plan) (w : World) : ((prepare p).after w).commands.lead = p.lead := by
  have hd := detached_openSession p.allowlist (some (w.base.join p.root)) p.extension
  obtain ⟨_, ho, -⟩ := hd.exists_outcome w
  rw [prepare, after_get_bind, after_bind_of_ok ho]
  rfl

/-- Makes what a plan says. The answer is the name. -/
def carryOut (p : Plan) : Op Datum := do
  let name ← ofSetting p.name
  prepare p
  return name

/-! ### Making a host by a plan -/

/-- What is done with the settings of a host that has a name. -/
def openNamed (scripts : Value) (name : Datum) : Op Unit := do
  let root ← ofExcept (scripts.field "root")
  let root ← ofExcept (Plan.path root)
  let root := (← get).base.join root
  let stdlib ← setting "lua" "stdlib" .null
  let extension ← ofExcept (scripts.fieldOr "extension" (.text ".lua"))
  let extension ← ofExcept (Plan.extensionText extension)
  let allowlist ← ofExcept (Plan.names stdlib)
  openSession allowlist (some root) extension
  takeCommands (Plan.word (← setting "commands" "prefix" (.text "lua")))
  modifyApplication fun a => { a with name }

/-- What is wrong with a value keeps all that would be done with it from being done. -/
theorem throw_bind_eq (f : Fault) (k k' : α → Op β) :
    ((throw f : Op α) >>= k) = (ofExcept (.error f) >>= k') :=
  rfl

/-- What a setting must be is told apart from what is done with it. -/
theorem openHost_def (es : Entries) : openHost es = (do
    modifyApplication fun a => { a with settings := es }
    let name ← ofSetting (← settingsSection "name")
    openNamed (← settingsSection "scripts") name) := by
  refine bind_congr fun _ => bind_congr fun _ => bind_congr fun name => bind_congr fun scripts =>
    bind_congr fun root => ?_
  cases root with
  | text root =>
    refine bind_congr (x := pure (Path.ofString root)) fun root => bind_congr fun _ =>
      bind_congr fun stdlib => bind_congr fun extension => ?_
    cases extension with
    | text extension =>
      refine bind_congr (x := pure extension) fun extension => ?_
      dsimp only [Plan.names]
      split <;> rfl
    | _ => exact throw_bind_eq _ _ _
  | _ => exact throw_bind_eq _ _ _

theorem ofExcept_ok_bind (x : α) (k : α → Op β) : (ofExcept (.ok x) >>= k) = k x :=
  rfl

theorem outcome_setting_bind (section_ key : String) (other : Value)
    (k : Value → Op β) (w : World) :
    (setting section_ key other >>= k).outcome w =
      (sectionOf w.application.settings section_).fieldOr key other >>= fun v => (k v).outcome w := by
  rw [← outcome_ofExcept_bind]
  rfl

theorem setting_bind_of_ok {section_ key : String} {other v : Value} {w : World}
    (h : (sectionOf w.application.settings section_).fieldOr key other = .ok v)
    (k : Value → Op β) : (setting section_ key other >>= k).after w = (k v).after w := by
  change (ofExcept _ >>= k).after w = _
  rw [h, ofExcept_ok_bind]

/-- A session that is opened in between makes no difference to the last setting that is read. -/
theorem outcome_openSession_bind (allowlist : List Value) (root : Option Path)
    (extension : String) {k : Value → Op Unit} (hk : ∀ v w, (k v).outcome w = .ok ())
    (w : World) :
    (openSession allowlist root extension >>= fun _ =>
      setting "commands" "prefix" (.text "lua") >>= k).outcome w =
      (sectionOf w.application.settings "commands").fieldOr "prefix" (.text "lua") >>= fun _ =>
        .ok () := by
  have hd := detached_openSession allowlist root extension
  obtain ⟨_, ho, -⟩ := hd.exists_outcome w
  rw [outcome_bind_of_ok ho, outcome_setting_bind, hd.application]
  exact bind_congr fun v => hk v _

theorem outcome_openNamed (w : World) (name : Datum) :
    (openNamed (sectionOf w.application.settings "scripts") name).outcome w =
      (fun _ => ()) <$> Plan.ofSettings w.application.settings := by
  rw [openNamed, outcome_ofExcept_bind, Plan.ofSettings, bind_assoc, map_bind]
  refine bind_congr fun root => ?_
  rw [outcome_ofExcept_bind, map_bind]
  refine bind_congr fun root => ?_
  rw [outcome_get_bind, outcome_setting_bind, bind_map_left, map_bind]
  refine bind_congr fun stdlib => ?_
  rw [outcome_ofExcept_bind, bind_assoc, map_bind]
  refine bind_congr fun extension => ?_
  rw [outcome_ofExcept_bind, map_bind]
  refine bind_congr fun extension => ?_
  rw [outcome_ofExcept_bind, map_bind]
  refine bind_congr fun allowlist => ?_
  rw [outcome_openSession_bind _ _ _ fun _ _ => rfl, map_bind]
  rfl

theorem after_openNamed {w : World} (h : Plan.ofSettings w.application.settings = .ok p)
    (name : Datum) :
    (openNamed (sectionOf w.application.settings "scripts") name).after w =
      ((prepare p).after w).withApplication { w.application with name } := by
  obtain ⟨-, root, stdlib, extension, lead, hroot, hpath, hstdlib, hextension, htext, hallowlist,
    hlead, hword⟩ := Plan.exists_of_ofSettings_ok h
  rw [openNamed, hroot, ofExcept_ok_bind, hpath, ofExcept_ok_bind, after_get_bind,
    setting_bind_of_ok hstdlib, hextension, ofExcept_ok_bind, htext, ofExcept_ok_bind, hallowlist,
    ofExcept_ok_bind]
  have hd := detached_openSession p.allowlist (some (w.base.join p.root)) p.extension
  obtain ⟨_, ho, -⟩ := hd.exists_outcome w
  rw [after_bind_of_ok ho, setting_bind_of_ok (by rwa [hd.application]), hword, prepare,
    after_get_bind, after_bind_of_ok ho, ← hd.application w]
  rfl

theorem run_carryOut {w : World} {name : Datum} (h : (ofSetting p.name).outcome w = .ok name) :
    (carryOut p).outcome w = .ok name ∧
      (carryOut p).after w = (prepare p).after ((ofSetting p.name).after w) := by
  obtain ⟨_, ho, -⟩ := (detached_prepare p).exists_outcome ((ofSetting p.name).after w)
  rw [carryOut, outcome_bind_of_ok h, after_bind_of_ok h, outcome_bind_of_ok ho, after_bind_of_ok ho]
  exact ⟨rfl, rfl⟩

/-- A host is made if its settings make a plan, and then by that plan. -/
theorem openHost_eq (es : Entries) (w : World) :
    (openHost es).outcome w = (fun _ => ()) <$> Plan.ofSettings es ∧
    ∀ p, Plan.ofSettings es = .ok p → ∃ name, (carryOut p).outcome w = .ok name ∧
      (openHost es).after w =
        ((carryOut p).after w).withApplication { w.application with settings := es, name } := by
  have hd := detached_ofSetting (sectionOf es "name")
  obtain ⟨name, hw, hname⟩ := hd.exists_outcome w
  let a := { w.application with settings := es }
  let v := ((ofSetting (sectionOf es "name")).after w).withApplication a
  have hv : (ofSetting (sectionOf es "name")).after (w.withApplication a) = v :=
    hd.after_withApplication w a
  rw [openHost_def, modifyApplication, outcome_modify_bind, after_modify_bind]
  change (ofSetting (sectionOf es "name") >>= _).outcome (w.withApplication a) = _ ∧
    ∀ p, _ → ∃ _, _ ∧ (ofSetting (sectionOf es "name") >>= _).after (w.withApplication a) = _
  rw [outcome_bind_of_ok (hname a), after_bind_of_ok (hname a), hv]
  refine ⟨outcome_openNamed v name, fun p hp => ?_⟩
  rw [← (Plan.exists_of_ofSettings_ok hp).1] at hw
  obtain ⟨ho, ha⟩ := run_carryOut hw
  refine ⟨name, ho, (after_openNamed (w := v) hp name).trans ?_⟩
  rw [(detached_prepare p).after_withApplication, ha, (Plan.exists_of_ofSettings_ok hp).1]
  rfl

end Op

/-! ### Bare gaps -/

/-- A gap that nothing fills. -/
inductive Settings.Gap.IsBare : Gap → Prop
  | root : IsBare (.inside "scripts" (.text "root"))
  | extension : IsBare (.inside "scripts" (.text "extension"))
  | lead : IsBare (.inside "commands" (.text "prefix"))

/-- Other sections have no bare gaps. -/
theorem Settings.Gap.not_isBare {name : String} (hs : name ≠ "scripts") (hc : name ≠ "commands")
    (key : Value) : ¬ IsBare (.inside name key) := by
  rintro (_ | _ | _)
  · exact hs rfl
  · exact hs rfl
  · exact hc rfl

namespace Plan

variable {es es' : Entries}

/-- Settings that read the same make the same plan, but for the word for commands. -/
theorem ofSettings_congr {v v' : Value} (hname : sectionOf es "name" = sectionOf es' "name")
    (hroot : (sectionOf es "scripts").field "root" = (sectionOf es' "scripts").field "root")
    (hstdlib : names <$> (sectionOf es "lua").fieldOr "stdlib" .null =
      names <$> (sectionOf es' "lua").fieldOr "stdlib" .null)
    (hextension : (sectionOf es "scripts").fieldOr "extension" (.text ".lua") =
      (sectionOf es' "scripts").fieldOr "extension" (.text ".lua"))
    (hlead : (sectionOf es "commands").fieldOr "prefix" (.text "lua") = .ok v)
    (hlead' : (sectionOf es' "commands").fieldOr "prefix" (.text "lua") = .ok v') :
    ofSettings es = (fun p => { p with lead := word v }) <$> ofSettings es' := by
  simp only [ofSettings, hname, hroot, hstdlib, hextension, hlead, hlead', map_bind]
  rfl

/-- A gap that is not bare makes no difference to a plan. -/
theorem ofSettings_of_not_isBare {gap : Gap} (h : LeavesEmpty gap es es') (ho : Orderly es)
    (ho' : Orderly es') (hb : ¬ gap.IsBare) :
    ofSettings (merge defaults es) = ofSettings (merge defaults es') := by
  cases gap with
  | top key => rw [merge_top h]
  | inside name key =>
    have hname : name ≠ "name" := by
      rintro rfl
      obtain ⟨-, _, _, _, hdef, -⟩ := merge_inside h ho ho'
      cases hdef
    have hstdlib : names <$> (sectionOf (merge defaults es) "lua").fieldOr "stdlib" .null =
        names <$> (sectionOf (merge defaults es') "lua").fieldOr "stdlib" .null := by
      by_cases hk : "lua" = name ∧ key = .text "stdlib"
      · obtain ⟨rfl, rfl⟩ := hk
        obtain ⟨-, hnull, hdef⟩ := read_there h ho ho' .null
        rw [hnull, hdef]
        rfl
      · rw [(read_elsewhere h ho ho' hk .null).2]
    have hroot : ¬ ("scripts" = name ∧ key = .text "root") := fun ⟨hn, hk⟩ =>
      hb (hn ▸ hk ▸ .root)
    have hextension : ¬ ("scripts" = name ∧ key = .text "extension") := fun ⟨hn, hk⟩ =>
      hb (hn ▸ hk ▸ .extension)
    have hlead : ¬ ("commands" = name ∧ key = .text "prefix") := fun ⟨hn, hk⟩ =>
      hb (hn ▸ hk ▸ .lead)
    have hself : sectionOf (merge defaults es) "name" = sectionOf (merge defaults es') "name" :=
      sectionOf_elsewhere h ho ho' hname.symm
    simp only [ofSettings, hself, hstdlib, (read_elsewhere h ho ho' hroot .null).1,
      (read_elsewhere h ho ho' hextension (.text ".lua")).2,
      (read_elsewhere h ho ho' hlead (.text "lua")).2]

/-- A bare gap leaves no plan, or one without a word for commands. -/
theorem ofSettings_of_isBare {gap : Gap} (h : LeavesEmpty gap es es') (ho : Orderly es)
    (ho' : Orderly es') (hb : gap.IsBare) {p : Plan} (hp : ofSettings (merge defaults es) = .ok p) :
    p.lead = none ∧ ∃ p', ofSettings (merge defaults es') = .ok p' ∧ p'.lead = some "lua" := by
  cases hb with
  | root =>
    obtain ⟨-, _, _, _, _, hroot, hpath, -⟩ := exists_of_ofSettings_ok hp
    rw [(read_there h ho ho' .null).1] at hroot
    cases hroot
    cases hpath
  | extension =>
    obtain ⟨-, _, _, _, _, -, -, -, hextension, htext, -⟩ := exists_of_ofSettings_ok hp
    rw [(read_there h ho ho' (.text ".lua")).2.1] at hextension
    cases hextension
    cases htext
  | lead =>
    have hread {s k : String} (hs : s ≠ "commands") (other : Value) :=
      read_elsewhere h ho ho' (k := k) (s := s) (fun hn => hs hn.1) other
    obtain ⟨-, hnull, hdef⟩ := read_there h ho ho' (.text "lua")
    rw [ofSettings_congr (sectionOf_elsewhere h ho ho' (by decide)) (hread (by decide) .null).1
      (congrArg (names <$> ·) (hread (by decide) .null).2) (hread (by decide) _).2 hnull hdef] at hp
    obtain ⟨p', hp', rfl⟩ := exists_of_except_map hp
    obtain ⟨-, _, _, _, lead, -, -, -, -, -, -, hlead, hword⟩ := exists_of_ofSettings_ok hp'
    rw [hdef] at hlead
    cases hlead
    exact ⟨rfl, p', hp', hword.symm⟩

end Plan

/-! ### A host of a file -/

/-- The file at a path holds certain settings. -/
structure SettingsAt (w : World) (path : String) (es : Entries) : Prop where
  noNull : '\x00' ∉ path.toList
  nonempty : path ≠ ""
  noFolder : path.toList.getLast? ≠ some '/'
  holds : ∃ place content text,
    w.files.locate w.cwd (Path.ofString path) = .ok (place, .file content) ∧
    Text.decode content = .ok text ∧
    Value.ofText (String.ofList (Text.unifyLineEnds text.toList)) = .ok (.map es)

/-- What a host is made of. -/
structure Makeup where
  name : Datum
  root : Option Path
  extension : String
  allowlist : List Value
  lead : Option String

def World.makeup (w : World) : Makeup :=
  ⟨w.application.name, w.session.root, w.session.extension, w.session.allowlist, w.commands.lead⟩

theorem SettingsAt.orderly {w : World} {path : String} {es : Entries} (h : SettingsAt w path es) :
    Orderly es :=
  let ⟨_, _, _, _, _, ht⟩ := h.holds
  orderly_of_ofText ht

namespace Op

variable {w : World} {path path' : String} {es es' : Entries}

/-- The settings of a file go over the default ones, and reading them changes nothing. -/
theorem run_readSettings (h : SettingsAt w path es) :
    (readSettings (some path)).outcome w = .ok (merge defaults es) ∧
      (readSettings (some path)).after w = w := by
  obtain ⟨place, content, text, hfile, hdecode, htext⟩ := h.holds
  have hsaid : Settings.ofText (String.ofList (Text.unifyLineEnds text.toList)) =
      .ok (merge defaults es) := by
    rw [Settings.ofText, htext]
    change ofFile (.map es) = _
    unfold ofFile
    cases es <;> rfl
  have hnull : ¬ (path.toList.contains '\x00') := by simpa using h.noNull
  rw [readSettings, outcome_get_bind, after_get_bind, if_neg hnull, if_neg h.nonempty, hfile]
  dsimp only
  rw [if_neg h.noFolder, hdecode]
  dsimp only
  rw [hsaid]
  exact ⟨rfl, rfl⟩

/-- Makes a host of the settings in the file at a path. -/
def makeHost (path : String) : Op Unit := do
  openHost (← readSettings (some path))

theorem makeHost_eq (h : SettingsAt w path es) :
    (makeHost path).outcome w = (openHost (merge defaults es)).outcome w ∧
      (makeHost path).after w = (openHost (merge defaults es)).after w := by
  obtain ⟨ho, ha⟩ := run_readSettings h
  rw [makeHost, outcome_bind_of_ok ho, after_bind_of_ok ho, ha]
  exact ⟨rfl, rfl⟩

/-- Of the files at two paths hosts of the same makeup are made, or none of both. -/
def MadeAlike (w : World) (path path' : String) : Prop :=
  ((makeHost path).Ends w ↔ (makeHost path').Ends w) ∧
    ((makeHost path).Ends w → ((makeHost path).after w).makeup = ((makeHost path').after w).makeup)

/-- A host is made of a file if its settings make a plan, and then by that plan. -/
theorem ends_makeHost_iff (h : SettingsAt w path es) :
    (makeHost path).Ends w ↔ ∃ p, Plan.ofSettings (merge defaults es) = .ok p := by
  rw [ends_iff, (makeHost_eq h).1, (openHost_eq _ w).1]
  constructor
  · rintro ⟨_, ho⟩
    exact (exists_of_except_map ho).imp fun _ hp => hp.1
  · rintro ⟨p, hp⟩
    exact ⟨(), by rw [hp]; rfl⟩

theorem after_makeHost (h : SettingsAt w path es) {p : Plan}
    (hp : Plan.ofSettings (merge defaults es) = .ok p) :
    ∃ name, (carryOut p).outcome w = .ok name ∧ (makeHost path).after w =
      ((carryOut p).after w).withApplication
        { w.application with settings := merge defaults es, name } := by
  obtain ⟨name, ho, ha⟩ := (openHost_eq (merge defaults es) w).2 p hp
  exact ⟨name, ho, (makeHost_eq h).2.trans ha⟩

theorem lead_makeHost (h : SettingsAt w path es) {p : Plan}
    (hp : Plan.ofSettings (merge defaults es) = .ok p) :
    ((makeHost path).after w).commands.lead = p.lead := by
  obtain ⟨name, _, ha⟩ := after_makeHost h hp
  obtain ⟨name, hn, -⟩ := (detached_ofSetting p.name).exists_outcome w
  rw [ha, (run_carryOut hn).2]
  exact lead_prepare p _

variable {gap : Gap}

/-- A gap that is not bare makes no difference to a host, but for its settings. -/
theorem makeHost_of_not_isBare (h : SettingsAt w path es) (h' : SettingsAt w path' es')
    (hgap : LeavesEmpty gap es es') (hb : ¬ gap.IsBare) :
    (makeHost path).outcome w = (makeHost path').outcome w ∧
      ((makeHost path).Ends w → ∃ settings, (makeHost path).after w =
        ((makeHost path').after w).withApplication
          { ((makeHost path').after w).application with settings }) := by
  have hplan := Plan.ofSettings_of_not_isBare hgap h.orderly h'.orderly hb
  constructor
  · rw [(makeHost_eq h).1, (makeHost_eq h').1, (openHost_eq _ w).1, (openHost_eq _ w).1, hplan]
  · intro he
    obtain ⟨p, hp⟩ := (ends_makeHost_iff h).mp he
    obtain ⟨name, ho, ha⟩ := after_makeHost h hp
    obtain ⟨name', ho', ha'⟩ := after_makeHost h' (hplan.symm.trans hp)
    obtain rfl : name = name' := Except.ok.inj (ho.symm.trans ho')
    exact ⟨merge defaults es, by rw [ha, ha']; rfl⟩

/-- With a bare gap there is no host, or one that no command is for. -/
theorem makeHost_of_isBare (h : SettingsAt w path es) (h' : SettingsAt w path' es')
    (hgap : LeavesEmpty gap es es') (hb : gap.IsBare) (he : (makeHost path).Ends w) :
    ((makeHost path).after w).commands.lead = none ∧ (makeHost path').Ends w ∧
      ((makeHost path').after w).commands.lead = some "lua" := by
  obtain ⟨p, hp⟩ := (ends_makeHost_iff h).mp he
  obtain ⟨hlead, p', hp', hlead'⟩ := Plan.ofSettings_of_isBare hgap h.orderly h'.orderly hb hp
  exact ⟨(lead_makeHost h hp).trans hlead, (ends_makeHost_iff h').mpr ⟨p', hp'⟩,
    (lead_makeHost h' hp').trans hlead'⟩

theorem not_madeAlike_of_isBare (h : SettingsAt w path es) (h' : SettingsAt w path' es')
    (hgap : LeavesEmpty gap es es') (hb : gap.IsBare) (he : (makeHost path').Ends w) :
    ¬ MadeAlike w path path' := by
  intro ⟨hends, hmade⟩
  obtain ⟨hlead, -, hlead'⟩ := makeHost_of_isBare h h' hgap hb (hends.mpr he)
  have hsame : ((makeHost path).after w).commands.lead = ((makeHost path').after w).commands.lead :=
    congrArg Makeup.lead (hmade (hends.mpr he))
  rw [hlead, hlead'] at hsame
  cases hsame

/-- **What is left empty.** The settings of a file go over the default ones: what the file does not
mention keeps its default, at the top and in every section that it changes a part of. A key that it
leaves empty is as good as not mentioned: the same host is made, or none for the same reason. Only the
root and the extension of scripts and the word for commands are not, if they are left empty in their
sections, and a host can be made without them. -/
theorem madeAlike_iff (h : SettingsAt w path es) :
    (readSettings (some path)).outcome w = .ok (merge defaults es) ∧
    (∀ name, find? es (.text name) = none →
      find? (merge defaults es) (.text name) = find? defaults (.text name)) ∧
    (∀ name olds news, find? defaults (.text name) = some (.map olds) →
      find? es (.text name) = some (.map news) →
      ∃ made, find? (merge defaults es) (.text name) = some (.map made) ∧
        ∀ key, find? made (.text key) = (find? news (.text key)).or (find? olds (.text key))) ∧
    ∀ gap path' es', SettingsAt w path' es' → LeavesEmpty gap es es' →
      (MadeAlike w path path' ↔ ¬ gap.IsBare ∨ ¬ (makeHost path').Ends w) ∧
      (¬ gap.IsBare → (makeHost path).outcome w = (makeHost path').outcome w ∧
        ((makeHost path).Ends w → ∃ settings, (makeHost path).after w =
          ((makeHost path').after w).withApplication
            { ((makeHost path').after w).application with settings })) := by
  refine ⟨(run_readSettings h).1, fun name hn => ?_, fun name olds news hdef hnews => ?_,
    fun gap path' es' h' hgap => ⟨⟨fun hm => ?_, ?_⟩, makeHost_of_not_isBare h h' hgap⟩⟩
  · rw [find?_merge h.orderly.distinct, hn]
  · refine ⟨putAll olds news, ?_, find?_putAll (h.orderly.inner_of_find? hnews) olds⟩
    rw [find?_merge h.orderly.distinct, hnews, hdef]
    rfl
  · by_cases hb : gap.IsBare
    · exact .inr fun he => not_madeAlike_of_isBare h h' hgap hb he hm
    · exact .inl hb
  · rintro (hb | he')
    · obtain ⟨ho, ha⟩ := makeHost_of_not_isBare h h' hgap hb
      refine ⟨by rw [Ends, Ends, ho], fun he => ?_⟩
      obtain ⟨settings, ha⟩ := ha he
      rw [ha]
      rfl
    · have hn : ¬ (makeHost path).Ends w := by
        intro he
        by_cases hb : gap.IsBare
        · exact he' (makeHost_of_isBare h h' hgap hb he).2.1
        · rw [Ends, (makeHost_of_not_isBare h h' hgap hb).1] at he
          exact he' he
      exact ⟨iff_of_false hn he', fun he => absurd he hn⟩

/-- A world with settings files of which two leave something empty. -/
def draft : World where
  files := .folder
    [("host.yaml", .file (Text.encode "scripts:\n  extension:\n")),
      ("plain.yaml", .file (Text.encode "scripts: \x7b\x7d\n")),
      ("quiet.yaml", .file (Text.encode "lua:\n  stdlib:\n")),
      ("bare.yaml", .file (Text.encode "lua: \x7b\x7d\n"))]

theorem settingsAt_host : SettingsAt draft "host.yaml"
    [(.text "scripts", .map [(.text "extension", .null)])] :=
  ⟨by decide, by decide, by decide, _, _, "scripts:\n  extension:\n", rfl, by cbv, by cbv⟩

theorem settingsAt_plain : SettingsAt draft "plain.yaml" [(.text "scripts", .map [])] :=
  ⟨by decide, by decide, by decide, _, _, "scripts: \x7b\x7d\n", rfl, by cbv, by cbv⟩

theorem settingsAt_quiet : SettingsAt draft "quiet.yaml"
    [(.text "lua", .map [(.text "stdlib", .null)])] :=
  ⟨by decide, by decide, by decide, _, _, "lua:\n  stdlib:\n", rfl, by cbv, by cbv⟩

theorem settingsAt_bare : SettingsAt draft "bare.yaml" [(.text "lua", .map [])] :=
  ⟨by decide, by decide, by decide, _, _, "lua: \x7b\x7d\n", rfl, by cbv, by cbv⟩

/-- Without libraries named, none are allowed. -/
theorem madeAlike_of_quiet : MadeAlike draft "quiet.yaml" "bare.yaml" := by
  obtain ⟨-, -, -, hgaps⟩ := madeAlike_iff settingsAt_quiet
  exact (hgaps _ _ _ settingsAt_bare (.inside [] [] [] [] "lua" (.text "stdlib") rfl)).1.mpr
    (.inl (Gap.not_isBare (by decide) (by decide) _))

/-- The extension that is left empty is none, and no host is made, though one is without its key. -/
theorem not_madeAlike_of_extension :
    SettingsAt draft "host.yaml" [(.text "scripts", .map [(.text "extension", .null)])] ∧
      SettingsAt draft "plain.yaml" [(.text "scripts", .map [])] ∧
      (makeHost "host.yaml").outcome draft = .error (.noAttribute "NoneType" "startswith") ∧
      (makeHost "plain.yaml").Ends draft ∧ ¬ MadeAlike draft "host.yaml" "plain.yaml" := by
  have he : (makeHost "plain.yaml").Ends draft :=
    (ends_makeHost_iff settingsAt_plain).mpr ⟨_, rfl⟩
  refine ⟨settingsAt_host, settingsAt_plain, ?_, he,
    not_madeAlike_of_isBare settingsAt_host settingsAt_plain (.inside [] [] [] [] _ _ rfl)
      .extension he⟩
  rw [(makeHost_eq settingsAt_host).1, (openHost_eq _ _).1]
  rfl

end Op

end ScriptHost
