import ScriptHost.Proofs.Departures

/-!
# How a script comes

A load ends with its script loaded just when there is a file of well-formed text that runs to its end
(`Runs`), whatever hooks, the script that is told and listeners fail at. Otherwise it reports the one
reason there is (`Unfit`), and all that was listened to has ceased (`arrival_iff`).
-/
namespace ScriptHost.Op

open World
open Files (Path)

variable {host : Responder} {w : World} {home : Nat} {path : Path}

/-! ### What becomes of a text -/

/-- The text of the script that a file has. -/
def scriptText (text : String) : String :=
  String.ofList (Text.unifyLineEnds text.toList)

/-- At a path there is a file of well-formed text that runs to its end. -/
def Runs (host : Responder) (path : Path) (home : Nat) (w : World) : Prop :=
  ∃ content text, Files.look w.files w.cwd path = .ok (some (.file content)) ∧
    Text.decode content = .ok text ∧
    (execute host home (scriptText text)).Ends ((record (.body home path)).after w)

/-- Why it is not so. -/
inductive Unfit (host : Responder) (path : Path) (home : Nat) (w : World) : Fault → Prop
  | missing {found : Option Files.Node} (look : Files.look w.files w.cwd path = .ok found)
    (none : ∀ content, found ≠ some (.file content)) :
    Unfit host path home w (.scriptMissing path.toString)
  | unreadable {content : Text.Bytes} {m : Text.Malformed}
    (look : Files.look w.files w.cwd path = .ok (some (.file content)))
    (malformed : Text.decode content = .error m) :
    Unfit host path home w (.scriptUnreadable path.toString (.undecodable m))
  | failed {content : Text.Bytes} {text : String} {f : Fault}
    (look : Files.look w.files w.cwd path = .ok (some (.file content)))
    (decoded : Text.decode content = .ok text)
    (fails : (execute host home (scriptText text)).outcome ((record (.body home path)).after w) =
      .error f) :
    Unfit host path home w (.scriptFailed path.toString f)

theorem Unfit.isOfLoad {f : Fault} (h : Unfit host path home w f) : f.isOfLoad := by
  cases h <;> rfl

theorem Unfit.isContained {f : Fault} (h : Unfit host path home w f) : f.isContained := by
  cases h <;> rfl

theorem Unfit.not_runs {f : Fault} (h : Unfit host path home w f) : ¬ Runs host path home w := by
  rintro ⟨content, text, hlook, hdecode, hends⟩
  cases h with
  | missing look none => exact none content (Except.ok.inj (look.symm.trans hlook))
  | unreadable look malformed =>
    have hsame := look.symm.trans hlook
    simp only [Except.ok.injEq, Option.some.injEq, Files.Node.file.injEq] at hsame
    rw [hsame, hdecode] at malformed
    cases malformed
  | failed look decoded fails =>
    have hsame := look.symm.trans hlook
    simp only [Except.ok.injEq, Option.some.injEq, Files.Node.file.injEq] at hsame
    rw [hsame, hdecode] at decoded
    rw [Except.ok.inj decoded] at hends
    exact not_ends_of_error fails hends

theorem outcome_runText (henv : w.session.environment = some home) (source : String) :
    (runText host path source).outcome w =
      (((execute host home source).outcome ((record (.body home path)).after w)).map
        fun _ => ()).mapError (.scriptFailed path.toString) := by
  have hbody : (runBody host path source).outcome w =
      ((execute host home source).outcome ((record (.body home path)).after w)).map fun _ => () := by
    rw [runBody, outcome_get_bind, henv]
    change Op.outcome ((fun _ => PUnit.unit) <$> execute host home source)
      ((record (.body home path)).after w) = _
    rw [map_eq_pure_bind, outcome_bind]
    cases (execute host home source).outcome ((record (.body home path)).after w) <;> rfl
  unfold runText
  rw [outcome_attempt_bind, hbody]
  cases (execute host home source).outcome ((record (.body home path)).after w) <;> rfl

theorem sourceAt_of_file {content : Text.Bytes}
    (hlook : Files.look w.files w.cwd path = .ok (some (.file content))) :
    sourceAt w path =
      match Text.decode content with
      | .ok text => .ok (scriptText text)
      | .error m => .error (.scriptUnreadable path.toString (.undecodable m)) := by
  unfold sourceAt
  rw [hlook]
  rfl

theorem runs_of_source {source : String} (hs : sourceAt w path = .ok source)
    (he : (execute host home source).Ends ((record (.body home path)).after w)) :
    Runs host path home w := by
  cases hlook : Files.look w.files w.cwd path with
  | error f => rw [sourceAt, hlook] at hs; cases hs
  | ok found =>
    cases found with
    | none => rw [sourceAt, hlook] at hs; cases hs
    | some node =>
      cases node with
      | folder entries => rw [sourceAt, hlook] at hs; cases hs
      | file content =>
        rw [sourceAt_of_file hlook] at hs
        cases hd : Text.decode content with
        | error m => rw [hd] at hs; cases hs
        | ok text =>
          rw [hd] at hs
          cases hs
          exact ⟨content, text, hlook, hd, he⟩

theorem tame_readSource (hlook : ∃ found, Files.look w.files w.cwd path = .ok found) :
    (readSource path).Tame w := by
  obtain ⟨found, hlook⟩ := hlook
  rw [Tame, outcome_readSource]
  cases found with
  | none => rw [sourceAt, hlook]; rfl
  | some node =>
    cases node with
    | folder entries => rw [sourceAt, hlook]; rfl
    | file content =>
      rw [sourceAt_of_file hlook]
      cases Text.decode content <;> trivial

/-- A script that has an environment runs to its end, or there is a reason why it does not. -/
theorem runs_or_unfit (hb : (buildEnvironment host).outcome w = .ok home)
    (henv : ((moveIn host).after w).session.environment = some home)
    (hlook : ∃ found, Files.look ((moveIn host).after w).files ((moveIn host).after w).cwd path =
      .ok found) :
    (Runs host path home ((moveIn host).after w) ∧ (runScript host path).outcome w = .ok ()) ∨
      ∃ f, Unfit host path home ((moveIn host).after w) f ∧
        (runScript host path).outcome w = .error f := by
  obtain ⟨found, hlook⟩ := hlook
  rw [(runScript_of_built hb path).1]
  set m := (moveIn host).after w
  have hread := outcome_readSource path m
  have missing : (∀ content, found ≠ some (.file content)) →
      sourceAt m path = .error (.scriptMissing path.toString) →
      ∃ f, Unfit host path home m f ∧ (readSource path >>= runText host path).outcome m = .error f :=
    fun hn hs => ⟨_, .missing hlook hn, outcome_bind_of_error (hread.trans hs) _⟩
  cases found with
  | none => exact .inr (missing nofun (by unfold sourceAt; rw [hlook]; rfl))
  | some node =>
    cases node with
    | folder entries => exact .inr (missing nofun (by unfold sourceAt; rw [hlook]; rfl))
    | file content =>
      rw [sourceAt_of_file hlook] at hread
      cases hd : Text.decode content with
      | error malformed =>
        rw [hd] at hread
        exact .inr ⟨_, .unreadable hlook hd, outcome_bind_of_error hread _⟩
      | ok text =>
        have hr : (readSource path).outcome m = .ok (scriptText text) := by rw [hread, hd]
        rw [outcome_bind_of_ok hr, after_readSource, outcome_runText henv]
        cases he : (execute host home (scriptText text)).outcome
          ((record (.body home path)).after m) with
        | ok v => exact .inl ⟨⟨content, text, hlook, hd, ends_iff.2 ⟨v, he⟩⟩, rfl⟩
        | error f => exact .inr ⟨_, .failed hlook hd he, rfl⟩

/-! ### What a load does -/

/-- Up to where the session has moved in, a load does what is to be seen at its end. -/
theorem exists_deeds_moveIn (hh : host.Follows) {own ds : List Deed} (hl : w.session.loaded = false)
    (hb : (buildEnvironment host).outcome (opening path w) = .ok home)
    (hmove : Leads (opening path w) own ds ((moveIn host).after (opening path w)))
    (he : (loadPath host path).Ends w) :
    ∃ rest, (loadPath host path).deeds w = .load path :: (ds ++ rest) := by
  obtain ⟨b, ho⟩ := ends_iff.1 he
  rw [outcome_loadPath] at ho
  have hrun : ((moveIn host).after (opening path w)).history.toList <+:
      ((runScript host path).after (opening path w)).history.toList := by
    rcases runScript_cases hh hb path with ⟨ran, -, es, h⟩ | ⟨-, -, ha⟩
    · exact ⟨es, h.history.symm⟩
    · rw [ha]
  obtain ⟨rest, hrest⟩ := hrun.trans <| history_runScript_prefix hh path (opening path w)
  have hall := (leads_opening path hl).trans hmove
  refine ⟨rest, ?_⟩
  rw [Op.deeds, after_loadPath_of_ok ho, ← hrest, hall.history, List.append_assoc,
    List.drop_left' (by simp)]
  rfl

/-- Where nobody else loads or unloads anything, the session is in the environment that was built. -/
theorem environment_moveIn (hh : host.Follows) (hl : w.session.loaded = false)
    (hb : (buildEnvironment host).outcome (opening path w) = .ok home)
    (he : (loadPath host path).Ends w)
    (alone : Woven.Alone [.load path] ((loadPath host path).deeds w)) :
    ((moveIn host).after (opening path w)).session.environment = some home := by
  obtain ⟨functions, hooks, hentrance⟩ := exists_entrance hh hb
  have hmove := hentrance.does.leads
  obtain ⟨rest, hdeeds⟩ := exists_deeds_moveIn hh hl hb hmove he
  have hn := (Woven.alone_cons_iff rfl).1 (hdeeds ▸ alone)
  have hheld := hmove.holding.trans (hmove.woven.replay_eq
    (Woven.alone_of_none (fun d hd => hn d (List.mem_append_left _ hd)) _) _)
  exact congrArg Holding.environment (hheld.trans (replay_beginning _ functions home hooks))

/-- A script that has run to its end becomes loaded. -/
theorem exists_leads_of_runs (hh : host.Follows) (hl : w.session.loaded = false)
    (hb : (buildEnvironment host).outcome (opening path w) = .ok home)
    (henv : ((moveIn host).after (opening path w)).session.environment = some home)
    (hr : (runScript host path).outcome (opening path w) = .ok ())
    (he : (loadPath host path).Ends w) :
    (loadPath host path).outcome w = .ok true ∧
      (loadPath host path).after w =
        (becomeLoaded host path).after ((runScript host path).after (opening path w)) ∧
      ∃ functions registered told asked, (loadPath host path).Does w (.load path ::
        (beginning functions home registered ++ .body home path :: ending path told asked true)) := by
  obtain ⟨functions, registered, hentrance⟩ := exists_entrance hh hb
  obtain ⟨ho, ha⟩ := bringUp_of_ok hr
  obtain ⟨b, hload⟩ := ends_iff.1 he
  rw [outcome_loadPath] at hload
  obtain ⟨_, hbecome, hb', ha'⟩ := exists_of_bind_ok (ho.symm.trans hload)
  cases hb'
  obtain ⟨told, -, -, htold, -⟩ := does_becomeLoaded hh path
    ((runScript host path).after (opening path w))
  obtain ⟨ds, hend⟩ := htold (ends_iff.2 ⟨_, hbecome⟩)
  have hafter : (loadPath host path).after w =
      (becomeLoaded host path).after ((runScript host path).after (opening path w)) := by
    rw [after_loadPath_of_ok hload, ha, ha', after_pure]
  have hrun : ∃ es, Leads ((moveIn host).after (opening path w)) [.body home path] es
      ((runScript host path).after (opening path w)) := by
    have hends := runScript_of_built hb path
    rw [hr] at hends
    obtain ⟨source, hsource, -, hsafter⟩ := exists_of_bind_ok hends.1.symm
    rw [hends.2, hsafter, after_readSource]
    exact (begins_runText hh path source henv).leads
  obtain ⟨es, hrun⟩ := hrun
  obtain ⟨fs, hmove⟩ := hentrance.does
  have hall := (((leads_opening path hl).trans hmove).trans hrun).trans hend
  refine ⟨by rw [outcome_loadPath, hload], hafter, functions, registered, told,
    ((takeUp host path).after ((runScript host path).after (opening path w))).session.environment, ?_⟩
  rw [Does, hafter]
  exact ⟨_, by simpa [ending, beginning] using hall⟩

/-- The world in which what a script has begun that cannot be loaded is undone, for a reason. -/
def undoneIn (host : Responder) (path : Path) (f : Fault) (w : World) : World :=
  (report host f .error).after ((runScript host path).after (opening path w))

theorem leads_giveUp (u : World) : Leads u [.fail] [.fail] (giveUp.after u) :=
  leads_enter u { u.session with environment := none, path := none } .fail rfl rfl rfl trivial

theorem outcome_undo {f : Fault} (he : (endSubscriptions host).Ends ((report host f .error).after w)) :
    (undo host f).outcome w = .ok () ∧ (undo host f).after w =
      giveUp.after ((endSubscriptions host).after ((report host f .error).after w)) := by
  obtain ⟨_, hreport⟩ := ends_iff.1 (ends_report host f .error w)
  obtain ⟨_, hends⟩ := ends_iff.1 he
  unfold undo rollBack
  rw [outcome_bind_of_ok hreport, after_bind_of_ok hreport]
  exact ⟨outcome_bind_of_ok hends _, after_bind_of_ok hends _⟩

/-- A script that cannot be loaded is undone. -/
theorem loadPath_of_unfit {f : Fault} (hf : f.isContained)
    (hr : (runScript host path).outcome (opening path w) = .error f)
    (he : (endSubscriptions host).Ends (undoneIn host path f w)) :
    (loadPath host path).outcome w = .ok false ∧ (loadPath host path).after w =
      giveUp.after ((endSubscriptions host).after (undoneIn host path f w)) := by
  obtain ⟨-, ho, ha⟩ := (bringUp_of_error hr).resolve_right fun h =>
    Bool.false_ne_true (h.1.symm.trans hf)
  obtain ⟨hu, hua⟩ := outcome_undo he
  rw [outcome_bind_of_ok hu] at ho
  rw [after_bind_of_ok hu, after_pure] at ha
  exact ⟨(outcome_loadPath _ _ _).trans ho, (after_loadPath_of_ok ho).trans (ha.trans hua)⟩

/-- Up to where its subscriptions end, such a load has the deeds of one. -/
theorem exists_leads_undoneIn (hh : host.Follows) (hl : w.session.loaded = false) (path : Path)
    (f : Fault) : ∃ own pre, Leads w (.load path :: own) (.load path :: pre)
      (undoneIn host path f w) ∧ ∀ d ∈ own, d.isRising := by
  obtain ⟨own, hrun, hrising, -⟩ := exists_does_runScript hh path (opening path w)
  have hpre := ((leads_opening path hl).trans hrun.leads).trans
    ((follows_report hh f .error).does _).leads
  refine ⟨own, (runScript host path).deeds (opening path w) ++
    (report host f .error).deeds ((runScript host path).after (opening path w)), ?_, hrising⟩
  simpa [undoneIn] using hpre

/-- What is left of a load that fails, if nothing else is loaded or unloaded. -/
theorem replay_failed {s : Holding} (hl : s.loaded = false) {own : List Deed}
    (hrising : ∀ d ∈ own, d.isRising) :
    s.replay (.load path :: own ++ [.teardown] ++ [.fail]) = {} := by
  have hloaded : (s.replay own).loaded = false :=
    (s.loaded_replay_of_rising fun d hd => .inl (hrising d hd)).trans hl
  simp only [Holding.replay_append, Holding.replay_cons, Holding.replay_nil]
  change Holding.mk none none (s.replay own).loaded = {}
  rw [hloaded]

/-! ### What a load reports -/

theorem deeds_of_adds {α : Type} {m : Op α} {es : List LogEntry} {ds : List Deed}
    (h : Adds w es ds (m.after w)) : m.deeds w = ds := by
  rw [deeds, h.history, List.drop_left' (by simp)]

theorem reports_of_adds {α : Type} {m : Op α} {es : List LogEntry} {ds : List Deed}
    (h : Adds w es ds (m.after w)) : m.reports w = es.filterMap LogEntry.fault := by
  rw [Op.reports, h.log, List.drop_left' (by simp)]

/-- What is accounted for from the first deed of a load or an unloading on. -/
theorem exists_adds_of_accounts {d : Deed} {v : World} {faults : List Fault}
    (h : World.Accounts ((record d).after w) faults v) : ∃ es ds, Adds w es (d :: ds) v ∧
      ((∀ e ∈ ds, e.isStart = false) → lifeFaults es = faults) := by
  obtain ⟨es, ds, ha, hf⟩ := h
  exact ⟨es, ds, (adds_record w d).trans ha, hf⟩

theorem accounts_unload {n : Nat} {faults : List Fault} {ceased late : List Deed}
    (hl : w.session.loaded = true) (he : (unload (respond n)).Ends w)
    (hend : Ended (respond n) (toldIn (respond n) w) faults ceased late) :
    World.Accounts ((record .unload).after w) faults ((unload (respond n)).after w) := by
  obtain ⟨_, hu⟩ := ends_iff.1 he
  obtain ⟨-, text, ha⟩ := after_unload_of_ok hl hu
  rw [ha, ← List.append_nil faults]
  let u := (endSubscriptions (respond n)).after (toldIn (respond n) w)
  have hvacate : Adds u [] [.vacate] (vacate.after u) :=
    ⟨(List.append_nil _).symm, Array.toList_push⟩
  have h := ((accounts_toldIn n w).trans hend.accounts).adds hvacate rfl
  exact h.trans (accounts_log .info "luahost.session" text none (vacate.after u))

/-- Up to its end, what a script is loaded from is not at fault. -/
theorem accounts_runScript {n : Nat} (hb : (buildEnvironment (respond n)).outcome w = .ok home)
    (path : Path) : (runScript (respond n) path).Accounts w [] := by
  have hmove := accounts_moveIn n w
  rw [Accounts, (runScript_of_built hb path).2]
  cases hs : (readSource path).outcome ((moveIn (respond n)).after w) with
  | error f =>
    rw [after_bind_of_error hs, after_readSource]
    exact hmove
  | ok text =>
    rw [after_bind_of_ok hs, after_readSource]
    exact World.Accounts.trans hmove (accounts_runText n path text _)

theorem filter_isOfLoad (faults : List Fault) :
    (faults.filter Fault.isOfLife).filter Fault.isOfLoad = faults.filter Fault.isOfLoad := by
  rw [List.filter_filter]
  refine List.filter_congr fun f _ => ?_
  cases f <;> rfl

/-- What a load reports of the life of a script if nothing else is loaded or unloaded. -/
theorem reports_of_alone {α : Type} {m : Op α} {d : Deed} {faults : List Fault}
    (hd : d.isStart) (h : World.Accounts ((record d).after w) faults (m.after w))
    (alone : Woven.Alone [d] (m.deeds w)) : (m.reports w).filter Fault.isOfLife = faults := by
  obtain ⟨es, ds, ha, hf⟩ := exists_adds_of_accounts h
  rw [deeds_of_adds ha, Woven.alone_cons_iff hd] at alone
  rw [reports_of_adds ha]
  exact hf alone

/-! ### In place of another -/

/-- How the script before is cleared away: what is left of the load is to bring up its own script, and
nothing about the one before is taken for a fault of it. -/
structure Cleared (host : Responder) (s : String) (w : World) (pre : List Deed) : Prop where
  loaded : (cleared host w).session.loaded = false
  outcome : (load host (.text s)).outcome w =
    (loadPath host (Path.ofString s)).outcome (cleared host w)
  after : (load host (.text s)).after w = (loadPath host (Path.ofString s)).after (cleared host w)
  history : (cleared host w).history.toList = w.history.toList ++ pre
  /-- What is listened to is what has been listened to since the load began. -/
  active : (cleared host w).eventBooks.active.names = listening [] pre
  homes : w.homes.size ≤ (cleared host w).homes.size
  reports : ((load host (.text s)).reports w).filter Fault.isOfLoad =
    ((loadPath host (Path.ofString s)).reports (cleared host w)).filter Fault.isOfLoad
  alone : Woven.Alone [.load (Path.ofString s)]
    ((loadPath host (Path.ofString s)).deeds (cleared host w))

theorem listening_of_forget {names : List String} {ds : List Deed} (h : .forget ∈ ds) :
    listening names ds = listening [] ds := by
  obtain ⟨pre, post, rfl⟩ := List.append_of_mem h
  simp [listeningStep]

theorem forget_mem_deeds_unload (hh : host.Follows) (hl : w.session.loaded = true)
    (hu : (unload host).outcome w = .ok ()) : .forget ∈ (unload host).deeds w := by
  obtain ⟨hooks, asked, pre, post, hpre, hpost, hforget⟩ := exists_split_of_unload hh hl hu
  rw [deeds, ← (hpre.trans hpost).deeds_eq]
  simp [hforget]

/-- What is reported of the life of the script before is not about the one that is to come. -/
theorem reports_load_of_loaded {n : Nat} {s : String} {faults : List Fault}
    (hu : (unload (respond n)).outcome w = .ok ())
    (hload : (load (respond n) (.text s)).after w =
      (loadPath (respond n) (Path.ofString s)).after ((unload (respond n)).after w))
    (hgone : ((unload (respond n)).reports w).filter Fault.isOfLife = faults)
    (hfaults : ∀ f ∈ faults, f.isOfLoad = false) :
    ((load (respond n) (.text s)).reports w).filter Fault.isOfLoad =
      ((loadPath (respond n) (Path.ofString s)).reports
        ((unload (respond n)).after w)).filter Fault.isOfLoad := by
  set u := (unload (respond n)).after w
  have hloaded : u.session.loaded = false := loaded_after_unload (ends_iff.2 ⟨_, hu⟩)
  obtain ⟨es, ds, ha, -⟩ := accounts_of_alike (fun _ => alike_accounts_unload n) w
  obtain ⟨es', ds', ha', -⟩ := accounts_of_alike (fun _ => alike_accounts_load n (.text s)) u
  rw [(load_of_not_loaded (respond n) s hloaded).2] at ha'
  have hall : Adds w (es ++ es') (ds ++ ds') ((load (respond n) (.text s)).after w) :=
    hload ▸ ha.trans ha'
  have hsilent : (es.filterMap LogEntry.fault).filter Fault.isOfLoad = [] := by
    rw [← filter_isOfLoad, ← reports_of_adds ha, hgone]
    exact List.filter_eq_nil_iff.2 fun f hf => by simp [hfaults f hf]
  rw [reports_of_adds hall, reports_of_adds ha', List.filterMap_append, List.filter_append, hsilent,
    List.nil_append]

theorem cleared_of_idle {s : String} (hidle : w.Idle)
    (alone : Woven.Alone [.load (Path.ofString s)] ((load host (.text s)).deeds w)) :
    Cleared host s w [] := by
  obtain ⟨ho, ha⟩ := load_of_not_loaded host s hidle.loaded
  have hc : cleared host w = w := by simp [cleared, hidle.loaded]
  rw [deeds, ha] at alone
  refine ⟨?_, ?_, ?_, ?_, ?_, ?_, ?_, ?_⟩ <;> rw [hc]
  · exact hidle.loaded
  · exact ho
  · exact ha
  · exact (List.append_nil _).symm
  · exact congrArg (List.map Prod.fst) hidle.active
  · rw [reports_congr ha]
  · exact alone

theorem cleared_of_loaded {n : Nat} {s : String} (hl : w.session.loaded = true)
    (haloof : (toldIn (respond n) w).Aloof (respond n))
    (alone : Woven.Alone [.unload, .load (Path.ofString s)] ((load (respond n) (.text s)).deeds w))
    (he : (load (respond n) (.text s)).Ends w) :
    Cleared (respond n) s w ((unload (respond n)).deeds w) := by
  have hh := follows_respond n
  obtain ⟨b, he⟩ := ends_iff.1 he
  obtain ⟨ho, ha⟩ := load_of_loaded (respond n) s hl
  rw [ho] at he
  obtain ⟨_, hu, hload, hafter⟩ := exists_of_bind_ok he
  have hends : (unload (respond n)).Ends w := ends_iff.2 ⟨_, hu⟩
  have hloaded := loaded_after_unload hends
  obtain ⟨faults, ceased, late, hend⟩ := exists_ended n haloof
  obtain ⟨hooks, asked, hdoes, -, -⟩ := does_unload hh hl ((ends_unload_iff hl).1 hends)
  have hunload := hdoes.leads
  have hcome : (loadPath (respond n) (Path.ofString s)).Ends ((unload (respond n)).after w) :=
    ends_iff.2 ⟨b, hload⟩
  obtain ⟨hbring, hdeeds, own, hown⟩ := deeds_loadPath hh hloaded (ends_loadPath_iff.1 hcome)
  have hlater := (leads_opening (Path.ofString s) hloaded).trans hown.leads
  rw [← hbring, List.singleton_append, List.singleton_append, ← hdeeds] at hlater
  have hwhole : (load (respond n) (.text s)).deeds w = (unload (respond n)).deeds w ++
      (loadPath (respond n) (Path.ofString s)).deeds ((unload (respond n)).after w) := by
    rw [deeds, ha, hafter]
    exact (hunload.trans hlater).deeds_eq.symm
  rw [hwhole] at alone
  -- Each of the two begins once, so nothing comes between in either.
  obtain ⟨hgone, halone⟩ := Woven.alone_of_append_pair rfl rfl hunload.woven hlater.woven alone
  have hc : cleared (respond n) w = (unload (respond n)).after w := by simp [cleared, hl]
  refine ⟨?_, ?_, ?_, ?_, ?_, ?_, ?_, ?_⟩ <;> rw [hc]
  · exact hloaded
  · exact ho.trans (outcome_bind_of_ok hu _)
  · exact ha.trans hafter
  · exact hunload.history
  · rw [hunload.active, listening_of_forget (forget_mem_deeds_unload hh hl hu)]
  · exact hunload.grown.homes
  · obtain ⟨_, hfaults⟩ := hend.each
    exact reports_load_of_loaded hu (ha.trans hafter)
      (reports_of_alone rfl (accounts_unload hl hends hend) hgone) fun f hf =>
        (hfaults.isOfLife f hf).2
  · exact halone

/-! ### Coming and not coming -/

/-- The world in which the text of the script to come is read. -/
def awaiting (host : Responder) (s : String) (w : World) : World :=
  (moveIn host).after (opening (Path.ofString s) (cleared host w))

/-- The world in which the subscriptions of a script end that cannot be loaded, for a reason. -/
def undoing (host : Responder) (s : String) (f : Fault) (w : World) : World :=
  undoneIn host (Path.ofString s) f (cleared host w)

/-- A script has come: the session holds it, in an environment of its own, and no fault of a load is
reported. -/
structure Arrived (host : Responder) (s : String) (w : World) (home : Nat) : Prop where
  outcome : (load host (.text s)).outcome w = .ok true
  runs : Runs host (Path.ofString s) home (awaiting host s w)
  holding : ((load host (.text s)).after w).session.holding =
    ⟨some home, some (Path.ofString s), true⟩
  new : w.homes.size ≤ home
  /-- What is listened to is what has been listened to in the course of the load. -/
  active : ∀ name, name ∈ ((load host (.text s)).after w).eventBooks.active.names ↔
    Stands (· == .forget) (.listen name) ((load host (.text s)).deeds w)
  reports : ((load host (.text s)).reports w).filter Fault.isOfLoad = []

/-- A script has not come: nothing is left of it, and the one reason why is reported. -/
structure Undone (host : Responder) (s : String) (w : World) (home : Nat) (f : Fault)
    (faults : List Fault) (pre late : List Deed) : Prop where
  outcome : (load host (.text s)).outcome w = .ok false
  unfit : Unfit host (Path.ofString s) home (awaiting host s w) f
  holding : ((load host (.text s)).after w).session.holding = {}
  /-- What has been listened to in the course of the load ceases, each event once and in order. -/
  active : ∀ name, name ∈ (undoing host s f w).eventBooks.active.names ↔
    Stands (· == .forget) (.listen name) pre
  deeds : (load host (.text s)).deeds w = pre ++ .teardown ::
    ((undoing host s f w).eventBooks.active.entries.map (fun x => .detach x.2) ++
      .forget :: (late ++ [.fail]))
  each : ∃ v, Unsubscribes host ((record .teardown).after (undoing host s f w))
    (undoing host s f w).eventBooks.active.entries faults v
  /-- Nothing is listened to unless those who hear of the faults begin to. -/
  forgotten : (∀ name, .listen name ∉ late) →
    ((load host (.text s)).after w).eventBooks.active = {}
  late : ∀ d ∈ late, d.isQuiet
  reports : ((load host (.text s)).reports w).filter Fault.isOfLoad = [f]

theorem mem_listening_nil_iff {ds : List Deed} {name : String} :
    name ∈ listening [] ds ↔ Stands (· == .forget) (.listen name) ds := by
  simp [mem_listening_iff]

theorem arrived_of_runs {n : Nat} {s : String} {pre : List Deed}
    (hc : Cleared (respond n) s w pre)
    (hb : (buildEnvironment (respond n)).outcome
      (opening (Path.ofString s) (cleared (respond n) w)) = .ok home)
    (henv : (awaiting (respond n) s w).session.environment = some home)
    (hruns : Runs (respond n) (Path.ofString s) home (awaiting (respond n) s w))
    (hr : (runScript (respond n) (Path.ofString s)).outcome
      (opening (Path.ofString s) (cleared (respond n) w)) = .ok ())
    (he : (loadPath (respond n) (Path.ofString s)).Ends (cleared (respond n) w)) :
    Arrived (respond n) s w home := by
  have hh := follows_respond n
  obtain ⟨ho, ha, functions, registered, told, asked, hdoes⟩ :=
    exists_leads_of_runs hh hc.loaded hb henv hr he
  have hleads := hdoes.leads
  obtain ⟨_, _, hentrance⟩ := exists_entrance hh hb
  have alone : Woven.Alone (.load (Path.ofString s) :: (beginning functions home registered ++
      .body home (Path.ofString s) :: ending (Path.ofString s) told asked true))
      ((loadPath (respond n) (Path.ofString s)).deeds (cleared (respond n) w)) := hc.alone.cons _
  refine
    { outcome := hc.outcome.trans ho
      runs := hruns
      holding := ?_
      new := hc.homes.trans hentrance.new
      active := fun name => ?_
      reports := ?_ }
  · rw [hc.after, hleads.holding, hleads.woven.replay_eq alone, Holding.replay_cons,
      Holding.replay_append, replay_beginning]
    have htold : ∀ s : Holding, s.replay (told.map (.hook .loaded)) = s := fun s =>
      s.replay_of_isSteady isSteady_hook
    simp [ending, htold, Holding.step]
  · have hd : (load (respond n) (.text s)).deeds w =
        pre ++ (loadPath (respond n) (Path.ofString s)).deeds (cleared (respond n) w) := by
      rw [deeds, hc.after, hleads.history, hc.history, List.append_assoc, List.drop_left' (by simp)]
    rw [hc.after, hleads.active, hc.active, ← listening_append, ← hd]
    exact mem_listening_nil_iff
  · have haccounts : World.Accounts (opening (Path.ofString s) (cleared (respond n) w)) []
        ((loadPath (respond n) (Path.ofString s)).after (cleared (respond n) w)) := by
      rw [ha]
      exact World.Accounts.trans (accounts_runScript hb _) (accounts_becomeLoaded n _ _)
    rw [hc.reports, ← filter_isOfLoad, reports_of_alone rfl haccounts hc.alone]
    rfl

/-- What is reported of a load that is undone: why, and then what fails as its subscriptions end. -/
theorem accounts_of_unfit {n : Nat} {s : String} {f : Fault} {faults : List Fault}
    {ceased late : List Deed}
    (hb : (buildEnvironment (respond n)).outcome
      (opening (Path.ofString s) (cleared (respond n) w)) = .ok home)
    (hf : Unfit (respond n) (Path.ofString s) home (awaiting (respond n) s w) f)
    (hend : Ended (respond n) (undoing (respond n) s f w) faults ceased late) :
    World.Accounts (opening (Path.ofString s) (cleared (respond n) w)) (f :: faults)
      (giveUp.after ((endSubscriptions (respond n)).after (undoing (respond n) s f w))) := by
  have hreport := accounts_report n f .error ((runScript (respond n) (Path.ofString s)).after
    (opening (Path.ofString s) (cleared (respond n) w)))
  have hlife : f.isOfLife := by cases hf <;> rfl
  rw [List.filter_cons_of_pos hlife] at hreport
  have hgiveUp : ∀ u : World, Adds u [] [.fail] (giveUp.after u) := fun u =>
    ⟨(List.append_nil _).symm, Array.toList_push⟩
  exact (((accounts_runScript hb _).trans hreport).trans hend.accounts).adds (hgiveUp _) rfl

theorem undone_of_unfit {n : Nat} {s : String} {f : Fault} {before : List Deed}
    (hc : Cleared (respond n) s w before)
    (hb : (buildEnvironment (respond n)).outcome
      (opening (Path.ofString s) (cleared (respond n) w)) = .ok home)
    (hf : Unfit (respond n) (Path.ofString s) home (awaiting (respond n) s w) f)
    (hr : (runScript (respond n) (Path.ofString s)).outcome
      (opening (Path.ofString s) (cleared (respond n) w)) = .error f)
    (haloof : (undoing (respond n) s f w).Aloof (respond n)) :
    ∃ faults pre late, Undone (respond n) s w home f faults pre late := by
  have hh := follows_respond n
  obtain ⟨faults, ceased, late, hend⟩ := exists_ended n haloof
  obtain ⟨ho, ha⟩ := loadPath_of_unfit hf.isContained hr hend.ends
  obtain ⟨own, since, hsince, hrising⟩ :=
    exists_leads_undoneIn hh hc.loaded (Path.ofString s) f
  change Leads _ _ _ (undoing (respond n) s f w) at hsince
  change _ = giveUp.after ((endSubscriptions (respond n)).after (undoing (respond n) s f w)) at ha
  have hall := (hsince.trans hend.leads).trans (leads_giveUp _)
  rw [← ha] at hall
  have hdeeds : (loadPath (respond n) (Path.ofString s)).deeds (cleared (respond n) w) =
      .load (Path.ofString s) :: (since ++ .teardown :: (ceased ++ .forget :: late) ++ [.fail]) :=
    hall.deeds_eq.symm
  have alone := hc.alone
  rw [hdeeds] at alone
  have hn := (Woven.alone_cons_iff rfl).1 alone
  obtain ⟨rfl, hlate⟩ := hend.ceased_eq fun d hd => hn d <| by
    simp only [List.mem_append, List.mem_cons] at hd ⊢
    tauto
  have haccounts : World.Accounts (opening (Path.ofString s) (cleared (respond n) w)) (f :: faults)
      ((loadPath (respond n) (Path.ofString s)).after (cleared (respond n) w)) :=
    ha ▸ accounts_of_unfit hb hf hend
  refine ⟨faults, before ++ .load (Path.ofString s) :: since, late, ?_⟩
  exact
    { outcome := hc.outcome.trans ho
      unfit := hf
      holding := by
        rw [hc.after, hall.holding, hall.woven.replay_eq (alone.cons _)]
        exact replay_failed hc.loaded hrising
      active := fun name => by
        rw [hsince.active, hc.active, ← listening_append]
        exact mem_listening_nil_iff
      deeds := by
        rw [deeds, hc.after, hall.history, hc.history, List.append_assoc, List.drop_left' (by simp)]
        simp
      each := hend.each
      forgotten := fun hnone => Roster.eq_empty_of_names <| by
        have hsplit : .load (Path.ofString s) :: since ++
            .teardown :: ((undoing (respond n) s f w).eventBooks.active.entries.map
              (fun x => Deed.detach x.2) ++ .forget :: late) ++ [.fail] =
            (.load (Path.ofString s) :: since ++ .teardown ::
              (undoing (respond n) s f w).eventBooks.active.entries.map (fun x => Deed.detach x.2)) ++
                .forget :: (late ++ [.fail]) := by simp
        rw [hc.after, hall.active, hsplit]
        exact listening_eq_nil fun name hm =>
          (List.mem_append.1 hm).elim (hnone name) fun hm => by simp at hm
      late := hlate
      reports := by
        obtain ⟨_, hfaults⟩ := hend.each
        have hother : faults.filter Fault.isOfLoad = [] :=
          List.filter_eq_nil_iff.2 fun g hg => by simp [(hfaults.isOfLife g hg).2]
        rw [hc.reports, ← filter_isOfLoad, reports_of_alone rfl haccounts hc.alone,
          List.filter_cons_of_pos hf.isOfLoad, hother] }

/-- Whether a load ends in a value hangs on what the two scripts are to be told by. -/
theorem ends_load_iff_asked {n : Nat} {s : String}
    (hb : (buildEnvironment (respond n)).outcome
      (opening (Path.ofString s) (cleared (respond n) w)) = .ok home)
    (hlook : ∃ found, Files.look (awaiting (respond n) s w).files (awaiting (respond n) s w).cwd
      (Path.ofString s) = .ok found)
    (hgo : w.session.loaded = true → (toldIn (respond n) w).Aloof (respond n))
    (hback : ∀ f, (runScript (respond n) (Path.ofString s)).outcome
      (opening (Path.ofString s) (cleared (respond n) w)) = .error f →
        (undoing (respond n) s f w).Aloof (respond n)) :
    (load (respond n) (.text s)).Ends w ↔
      (w.session.loaded = true → CanAsk (respond n) "OnUnload" (leaving (respond n) w)) ∧
      ((runScript (respond n) (Path.ofString s)).Ends
          (opening (Path.ofString s) (cleared (respond n) w)) →
        CanAsk (respond n) "OnLoad" ((takeUp (respond n) (Path.ofString s)).after
          ((runScript (respond n) (Path.ofString s)).after
            (opening (Path.ofString s) (cleared (respond n) w))))) := by
  have ended : ∀ {u : World}, u.Aloof (respond n) →
      (unsubscribeAll (respond n)).Ends ((record .teardown).after u) := by
    intro u hu
    obtain ⟨faults, ceased, late, hend⟩ := exists_ended n hu
    exact (ends_endSubscriptions_iff u).1 hend.ends
  rw [ends_load_iff]
  constructor
  · exact fun h => ⟨fun hl => (h.unloaded hl).asked, h.brought.asked⟩
  rintro ⟨hfarewell, hwelcome⟩
  refine ⟨fun hl => ⟨hfarewell hl, ended (hgo hl)⟩, ?_⟩
  exact
    { built := tame_buildEnvironment_iff.1 (tame_of_ends (ends_iff.2 ⟨home, hb⟩))
      read := fun _ => tame_readSource hlook
      ended := fun f hf => ended (hback f hf)
      asked := hwelcome }

/-- **A script comes or it does not.** Where nothing else begins to load or unload anything, events do
not call back, an environment can be built and it can be told whether there is a file, a load ends in a
value iff what the scripts are to be told by can be looked up. Then it ends in `true` iff there is a
file of well-formed text that runs to its end, whatever hooks, the script that is told and listeners
fail at, and the script has come. Otherwise it is undone. -/
theorem arrival_iff (n : Nat) (s : String) (hq : w.session.loaded = true ∨ w.Idle)
    (hb : (buildEnvironment (respond n)).outcome
      (opening (Path.ofString s) (cleared (respond n) w)) = .ok home)
    (hlook : ∃ found, Files.look (awaiting (respond n) s w).files (awaiting (respond n) s w).cwd
      (Path.ofString s) = .ok found)
    (hgo : w.session.loaded = true → (toldIn (respond n) w).Aloof (respond n))
    (hback : ∀ f, (runScript (respond n) (Path.ofString s)).outcome
      (opening (Path.ofString s) (cleared (respond n) w)) = .error f →
        (undoing (respond n) s f w).Aloof (respond n))
    (alone : Woven.Alone
      (if w.session.loaded then [.unload, .load (Path.ofString s)] else [.load (Path.ofString s)])
      ((load (respond n) (.text s)).deeds w)) :
    ((load (respond n) (.text s)).Ends w ↔
      (w.session.loaded = true → CanAsk (respond n) "OnUnload" (leaving (respond n) w)) ∧
      ((runScript (respond n) (Path.ofString s)).Ends
          (opening (Path.ofString s) (cleared (respond n) w)) →
        CanAsk (respond n) "OnLoad" ((takeUp (respond n) (Path.ofString s)).after
          ((runScript (respond n) (Path.ofString s)).after
            (opening (Path.ofString s) (cleared (respond n) w)))))) ∧
    ((load (respond n) (.text s)).Ends w →
      ((load (respond n) (.text s)).outcome w = .ok true ↔
        Runs (respond n) (Path.ofString s) home (awaiting (respond n) s w)) ∧
      (Arrived (respond n) s w home ∨
        ∃ f faults pre late, Undone (respond n) s w home f faults pre late)) := by
  refine ⟨ends_load_iff_asked hb hlook hgo hback, fun he => ?_⟩
  have hh := follows_respond n
  have hc : ∃ pre, Cleared (respond n) s w pre := by
    cases hl : w.session.loaded with
    | true =>
      rw [hl, if_pos rfl] at alone
      exact ⟨_, cleared_of_loaded hl (hgo hl) alone he⟩
    | false =>
      rw [hl, if_neg Bool.false_ne_true] at alone
      exact ⟨_, cleared_of_idle (hq.resolve_left (by simp [hl])) alone⟩
  obtain ⟨pre, hc⟩ := hc
  have hcome : (loadPath (respond n) (Path.ofString s)).Ends (cleared (respond n) w) := by
    rw [Ends, ← hc.outcome]
    exact he
  have henv := environment_moveIn hh hc.loaded hb hcome hc.alone
  rcases runs_or_unfit hb henv hlook with ⟨hruns, hr⟩ | ⟨f, hf, hr⟩
  · have h := arrived_of_runs hc hb henv hruns hr hcome
    exact ⟨iff_of_true h.outcome hruns, .inl h⟩
  · obtain ⟨faults, pre, late, h⟩ := undone_of_unfit hc hb hf hr (hback f hr)
    refine ⟨iff_of_false (fun ho => ?_) hf.not_runs, .inr ⟨f, faults, pre, late, h⟩⟩
    cases h.outcome.symm.trans ho

/-- A script that listens, one that fails after it has begun to listen, and one that leaves a text that
is not well-formed where it would be told; hooks fail. -/
def fickle : World where
  files := (((default : Files.Node).put (.file (Text.encode "ListenTo('t')")) ["a.lua"]).put
    (.file (Text.encode "ListenTo('t') missing()")) ["b.lua"]).put
      (.file (Text.encode "OnLoad = '\\xff'")) ["c.lua"]
  objects := #[.absent, .callable ⟨"function", "<function>",
    fun _ => throw (.raised "RuntimeError" "hook"), none⟩]
  signals := ({} : Roster (List Handler)).put "s" []
  session := { hooks := { registered := [1] } }
  catalog := { events := ⟨[("t", pure ⟨"t", .signal "s" "T" fun _ _ => pure ()⟩)]⟩ }

/-- Why the second one cannot be loaded. -/
def missing : Fault :=
  .scriptFailed "b.lua"
    (.script "[string \"<python>\"]:1: attempt to call a nil value (global 'missing')")

theorem aloof_of_signalOf {u : World} {signal name : String} {event : Nat}
    (hactive : u.eventBooks.active.entries = [(name, event)])
    (hsignal : u.signalOf event = some signal) : u.Aloof host := by
  intro x hx
  rw [hactive, List.mem_singleton] at hx
  obtain ⟨d, callback, deliver, hd, hs⟩ := signalOf_eq_some_iff.1 hsignal
  refine ⟨d, hx ▸ hd, ?_⟩
  rw [EventDescriptor.Aloof, hs]
  trivial

/-- In place of the first script, the second one does not come: what it listens to ceases. -/
theorem undone_of_fickle :
    let w := (load (respond 9) (.text "a.lua")).after fickle
    (load (respond 9) (.text "b.lua")).outcome w = .ok false ∧
      ∃ faults pre late, Undone (respond 9) "b.lua" w 1 missing faults pre late := by
  intro w
  have h : w.session.loaded = true ∧
      (buildEnvironment (respond 9)).outcome
        (opening (Path.ofString "b.lua") (cleared (respond 9) w)) = .ok 1 ∧
      (Files.look (awaiting (respond 9) "b.lua" w).files (awaiting (respond 9) "b.lua" w).cwd
        (Path.ofString "b.lua")).isOk ∧
      (toldIn (respond 9) w).eventBooks.active.entries = [("t", 0)] ∧
      (toldIn (respond 9) w).signalOf 0 = some "s" ∧
      (runScript (respond 9) (Path.ofString "b.lua")).outcome
        (opening (Path.ofString "b.lua") (cleared (respond 9) w)) = .error missing ∧
      (undoing (respond 9) "b.lua" missing w).eventBooks.active.entries = [("t", 0)] ∧
      (undoing (respond 9) "b.lua" missing w).signalOf 0 = some "s" ∧
      Woven.Alone [.unload, .load (Path.ofString "b.lua")]
        ((load (respond 9) (.text "b.lua")).deeds w) ∧
      (load (respond 9) (.text "b.lua")).outcome w = .ok false ∧
      ((load (respond 9) (.text "b.lua")).reports w).filter Fault.isOfLoad = [missing] := by
    decide +kernel
  obtain ⟨hl, hb, hlook, hgo, hgos, hr, hback, hbacks, alone, ho, hreports⟩ := h
  have hlook' : ∃ found, Files.look (awaiting (respond 9) "b.lua" w).files
      (awaiting (respond 9) "b.lua" w).cwd (Path.ofString "b.lua") = .ok found := by
    cases hf : Files.look (awaiting (respond 9) "b.lua" w).files
      (awaiting (respond 9) "b.lua" w).cwd (Path.ofString "b.lua") with
    | ok found => exact ⟨found, rfl⟩
    | error f =>
      rw [hf] at hlook
      cases hlook
  have hback' : ∀ f, (runScript (respond 9) (Path.ofString "b.lua")).outcome
      (opening (Path.ofString "b.lua") (cleared (respond 9) w)) = .error f →
        (undoing (respond 9) "b.lua" f w).Aloof (respond 9) := by
    intro f hf
    cases hr.symm.trans hf
    exact aloof_of_signalOf hback hbacks
  have alone' : Woven.Alone (if w.session.loaded then [.unload, .load (Path.ofString "b.lua")]
      else [.load (Path.ofString "b.lua")]) ((load (respond 9) (.text "b.lua")).deeds w) := by
    rw [if_pos hl]
    exact alone
  obtain ⟨-, hends⟩ := arrival_iff 9 "b.lua" (.inl hl) hb hlook'
    (fun _ => aloof_of_signalOf hgo hgos) hback' alone'
  obtain ⟨-, harrived | ⟨f, faults, pre, late, hundone⟩⟩ := hends (ends_iff.2 ⟨_, ho⟩)
  · cases ho.symm.trans harrived.outcome
  · cases hundone.reports.symm.trans hreports
    exact ⟨ho, faults, pre, late, hundone⟩

/-- What the third script leaves under the name cannot become a value of the host, so its load raises a
fault although it runs to its end, and its environment is left. -/
theorem not_ends_load_of_fickle :
    Runs (respond 9) (Path.ofString "c.lua") 0 (awaiting (respond 9) "c.lua" fickle) ∧
      ¬ (load (respond 9) (.text "c.lua")).Ends fickle ∧
      ((load (respond 9) (.text "c.lua")).after fickle).session.holding =
        ⟨some 0, some (Path.ofString "c.lua"), false⟩ := by
  have h : sourceAt (awaiting (respond 9) "c.lua" fickle) (Path.ofString "c.lua") =
        .ok "OnLoad = '\\xff'" ∧
      (execute (respond 9) 0 "OnLoad = '\\xff'").Ends
        ((record (.body 0 (Path.ofString "c.lua"))).after (awaiting (respond 9) "c.lua" fickle)) ∧
      ¬ (load (respond 9) (.text "c.lua")).Ends fickle ∧
      ((load (respond 9) (.text "c.lua")).after fickle).session.holding =
        ⟨some 0, some (Path.ofString "c.lua"), false⟩ := by
    decide +kernel
  exact ⟨runs_of_source h.1 h.2.1, h.2.2⟩

end ScriptHost.Op
