import ScriptHost.Proofs.Border
import ScriptHost.Session.Lifecycle

/-!
# Lives that are alike

What a session does in the life of a script is alike for every bond that also holds whatever becomes
of the session, as long as the requests of foreign code and what is done about events are alike.
-/
namespace ScriptHost

open Files (Path)

/-- A bond that holds whatever becomes of the session and its history. -/
structure World.LifeBond (R : World → World → Prop) (p : Fault → Prop := fun _ => True) : Prop
    extends World.Bond R p where
  session : ∀ {w w'} (f : Session → Session), R w w' →
    R { w with session := f w.session } { w' with session := f w'.session }
  record : ∀ {w w'} {d : Deed}, d.isQuiet = false → R w w' →
    R { w with history := w.history.push d } { w' with history := w'.history.push d }

namespace Op

open World
open Script (Value)

variable {Q R : World → World → Prop} {p : Fault → Prop} {host host' : Responder}

section

variable (B : Bond R p)

include B

theorem alike_skipCall (shown : String) : Alike R (skipCall shown) (skipCall shown) :=
  alike_log B _ _ _

/-- How a script is looked for changes nothing but the log. -/
theorem alike_find (name : String) : Alike R (find name) (find name) := by
  refine alike_get B (fun _ => rfl) fun w => ?_
  have unavailable : ∀ text, Alike R (do
      warning "luahost.dispatch" text
      return (none : Option Path)) (do
      warning "luahost.dispatch" text
      return (none : Option Path)) :=
    fun text => (alike_log B _ _ _).bind fun _ => alike_pure _
  dsimp only
  split
  · exact unavailable _
  · refine (alike_ofExcept _).bind fun found => ?_
    split
    · refine (alike_ofExcept _).bind fun steps => (alike_ofExcept _).bind fun _ => ?_
      exact alike_pure _
    · exact unavailable _

theorem alike_readSource (path : Path) : Alike R (readSource path) (readSource path) :=
  alike_get B (fun _ => rfl) fun _ => alike_ofExcept _

/-! ### Reports and calls -/

section

variable (hh : host.Alike R host')

include hh

theorem alike_report (f : Fault) (level : LogLevel) (hf : p f) :
    Alike R (report host f level) (report host' f level) := by
  have hp : ∀ f', some f = some f' → p f' := by
    rintro _ ⟨⟩
    exact hf
  refine (alike_log_fault B _ _ _ _ hp).bind fun _ => alike_get B (fun _ => rfl) fun w => ?_
  refine .ite ?_ (alike_pure _)
  refine (alike_newObject B _).bind fun place => ?_
  refine alike_forM (fun listener => ?_) _
  refine (alike_callObject B hh listener _).attempt.bind fun r => ?_
  cases r with
  | ok _ => exact alike_pure _
  | error _ => exact alike_log B _ _ _

theorem alike_lookUp (home : Nat) (key : Datum) :
    Alike R (lookUp host home key) (lookUp host' home key) := by
  have other : ∀ k : Op Value, Alike R k k →
      Alike R (do
        let k ← k
        let v ← evaluate host home ((← siteOf home).context.index (← globalsOf home) k)
        toHost home v) (do
        let k ← k
        let v ← evaluate host' home ((← siteOf home).context.index (← globalsOf home) k)
        toHost home v) := fun k hk =>
    hk.bind fun _ => (alike_siteOf B _).bind fun _ => (alike_globalsOf B _).bind fun _ =>
      (alike_evaluate B hh _ _).bind fun _ => alike_toHost _ _
  cases key with
  | text x => exact alike_getGlobal B hh _ _
  | none => exact other _ (alike_pure _)
  | _ => exact other _ (alike_toScript B _ _)

theorem alike_callFound (home : Nat) (shown : String) (f : Datum) (args : List Datum)
    (hp : ∀ shown f, p (.callFailed shown f)) :
    Alike R (callFound host home shown f args) (callFound host' home shown f args) := by
  refine (alike_isCallable B f).bind fun callable => .ite ?_ (alike_skipCall B _)
  refine (alike_callWith B hh home f args).attempt.bind fun r => ?_
  cases r with
  | ok _ => exact alike_pure _
  | error _ => exact alike_report B hh _ _ (hp _ _)

theorem alike_callFunction (name : Datum) (args : List Datum)
    (hp : ∀ shown f, p (.callFailed shown f)) :
    Alike R (callFunction host name args) (callFunction host' name args) := by
  refine alike_get B (fun _ => by simp only [World.shown_bare]; rfl) fun w => ?_
  split
  · exact alike_skipCall B _
  · exact (alike_lookUp B hh _ _).bind fun f => alike_callFound B hh _ _ _ _ hp

/-- A script subscribes alike if the books do. -/
theorem alike_listenTo (hl : ∀ name, Alike R (listen host name) (listen host' name))
    (args : List Datum)
    (hp : ∀ name w f, (listen host name).outcome w = .error f → p f) :
    Alike R (listenTo host args) (listenTo host' args) := by
  have refuse : ∀ f level, p f → Alike R (do report host f level; return false)
      (do report host' f level; return false) := fun f level hf =>
    (alike_report B hh f level hf).bind fun _ => alike_pure _
  refine alike_get B (fun _ => by simp only [World.shown_bare]) fun w =>
    (hl _).attempt.bind_of_ok fun r v hr => ?_
  cases r with
  | ok _ => exact alike_pure _
  | error f =>
    have hf : p f := hp _ v f (Except.ok.inj hr)
    dsimp only
    split
    · exact refuse _ _ hf
    · exact refuse _ _ hf
    · exact .ite (refuse _ _ hf) (alike_throw _)

end

end

/-! ### The life of a script -/

/-- What hosts do about events in the life of a script is alike, and so are their answers. -/
structure Minds (R : World → World → Prop) (host host' : Responder) : Prop where
  answers : host.Alike R host'
  discover : Alike R (discover host) (discover host')
  unsubscribeAll : Alike R (unsubscribeAll host) (unsubscribeAll host')

section

variable (B : LifeBond R p)

include B

theorem alike_record {d : Deed} (hd : d.isQuiet = false) : Alike R (record d) (record d) :=
  fun _ _ h => ⟨rfl, B.record hd h⟩

theorem alike_modifySession (f : Session → Session) :
    Alike R (modifySession f) (modifySession f) :=
  fun _ _ h => ⟨rfl, B.session f h⟩

theorem alike_vacate : Alike R vacate vacate :=
  (alike_modifySession B _).bind fun _ => alike_record B rfl

theorem alike_giveUp : Alike R giveUp giveUp :=
  (alike_modifySession B _).bind fun _ => alike_record B rfl

theorem alike_settle : Alike R settle settle :=
  (alike_modifySession B _).bind fun _ => alike_record B rfl

section

variable (hh : host.Alike R host')

include hh

theorem alike_tell (name : String) (hp : ∀ shown f, p (.callFailed shown f)) :
    Alike R (tell host name) (tell host' name) :=
  alike_get B.toBond (fun _ => rfl) fun _ => (alike_record B rfl).bind fun _ =>
    alike_callFunction B.toBond hh _ _ hp

theorem alike_runHook (phase : Phase) (args : List Datum) (hook : Nat) :
    Alike R (runHook host phase args hook) (runHook host' phase args hook) := by
  refine (alike_record B rfl).bind fun _ => ?_
  refine (alike_callObject B.toBond hh hook args).attempt.bind fun r => ?_
  cases r with
  | ok _ => exact alike_pure _
  | error _ =>
    exact alike_get B.toBond (fun _ => by simp only [World.spell_bare]) fun _ =>
      alike_log B.toBond _ _ _

theorem alike_fireFrom (phase : Phase) (args : List Datum) (n i : Nat) :
    Alike R (fireFrom host phase args n i) (fireFrom host' phase args n i) := by
  induction n generalizing i with
  | zero => exact alike_pure _
  | succ n ih =>
    unfold fireFrom
    refine alike_get B.toBond (fun _ => rfl) fun w => ?_
    split
    · exact alike_pure _
    · exact (alike_runHook B hh _ _ _).bind fun _ => ih _

theorem alike_fire (phase : Phase) (args : List Datum) :
    Alike R (fire host phase args) (fire host' phase args) :=
  alike_get B.toBond (fun _ => rfl) fun _ => alike_fireFrom B hh _ _ _ _

theorem alike_createFunction (ident : String) (make : FunctionFactory) :
    Alike R (createFunction host ident make) (createFunction host' ident make) := by
  refine (alike_record B rfl).bind fun _ => (alike_perform hh make).attempt.bind fun r => ?_
  cases r with
  | ok _ => exact alike_pure _
  | error _ => exact (alike_log B.toBond _ _ _).bind fun _ => alike_pure _

theorem alike_createFrom (count : Nat) (offers : List (String × FunctionFactory)) :
    Alike R (createFrom host count offers) (createFrom host' count offers) := by
  induction offers with
  | nil => exact alike_pure _
  | cons offer rest ih =>
    refine (alike_createFunction B hh _ _).bind fun _ => alike_get B.toBond (fun _ => rfl) fun w => ?_
    refine Alike.bind (.ite (alike_pure _) (alike_throw _)) fun _ => ?_
    exact ih.bind fun _ => alike_pure _

theorem alike_createFunctions : Alike R (createFunctions host) (createFunctions host') :=
  alike_get B.toBond (fun _ => rfl) fun _ => alike_createFrom B hh _ _

/-- Environments are furnished alike if functions are installed alike. -/
theorem carries_furnish {home : Nat} {functions : List FunctionDescriptor}
    (hi : Carries Q R (installAll host home functions) (installAll host' home functions)) :
    Carries Q R (furnish host home functions) (furnish host' home functions) := by
  refine hi.bind fun _ => (alike_newObject B.toBond _).bind fun _ => ?_
  refine (alike_setGlobal B.toBond hh _ _ _).bind fun _ => ?_
  exact alike_get B.toBond (fun _ => by simp only [World.length_known_bare]) fun _ =>
    alike_log B.toBond _ _ _

theorem alike_furnish (home : Nat) (functions : List FunctionDescriptor) :
    Alike R (furnish host home functions) (furnish host' home functions) :=
  carries_furnish B hh (alike_installAll B.toBond hh home functions)

theorem alike_runBody (path : Path) (source : String) :
    Alike R (runBody host path source) (runBody host' path source) := by
  refine alike_get B.toBond (fun _ => rfl) fun w => ?_
  split
  · exact (alike_record B rfl).bind fun _ => (alike_execute B.toBond hh _ _).discard
  · exact alike_throw _

theorem alike_runText (path : Path) (source : String) :
    Alike R (runText host path source) (runText host' path source) := by
  refine (alike_runBody B hh path source).attempt.bind fun r => ?_
  cases r with
  | ok _ => exact alike_pure _
  | error _ => exact alike_throw _

/-- Scripts run alike once their environments are built alike. -/
theorem carries_runScript
    (hb : Carries Q R (buildEnvironment host) (buildEnvironment host')) (path : Path) :
    Carries Q R (runScript host path) (runScript host' path) := by
  refine Carries.bind ?_ fun source => alike_runText B hh path source
  refine Carries.bind ?_ fun _ => alike_readSource B.toBond path
  refine hb.bind fun home => (alike_modifySession B _).bind fun _ => ?_
  exact (alike_record B rfl).bind fun _ => (alike_newObject B.toBond _).bind fun _ =>
    alike_fire B hh _ _

theorem alike_takeUp (path : Path) : Alike R (takeUp host path) (takeUp host' path) :=
  (alike_modifySession B _).bind fun _ => (alike_record B rfl).bind fun _ => alike_fire B hh _ _

theorem alike_becomeLoaded (path : Path)
    (hp : ∀ shown f, p (.callFailed shown f)) :
    Alike R (becomeLoaded host path) (becomeLoaded host' path) :=
  (alike_takeUp B hh path).bind fun _ => (alike_tell B hh _ hp).bind fun _ =>
    (alike_settle B).bind fun _ => alike_log B.toBond _ _ _

end

section

variable (hm : Minds R host host')

include hm

theorem alike_openHome : Alike R (openHome host) (openHome host') := by
  refine alike_get B.toBond (fun _ => rfl) fun w => (alike_ofExcept _).bind fun keep => ?_
  refine (alike_openEnvironment B.toBond _ _).bind fun home => ?_
  exact hm.discover.discard.bind fun _ => alike_pure _

theorem alike_buildEnvironment : Alike R (buildEnvironment host) (buildEnvironment host') :=
  (alike_openHome B hm).bind fun _ => (alike_createFunctions B hm.answers).bind fun _ =>
    (alike_furnish B hm.answers _ _).bind fun _ => alike_pure _

theorem alike_runScript (path : Path) : Alike R (runScript host path) (runScript host' path) :=
  carries_runScript B hm.answers (alike_buildEnvironment B hm) path

end

end

section

variable (B : LifeBond R) (hm : Minds R host host')

include B hm

theorem alike_endSubscriptions : Alike R (endSubscriptions host) (endSubscriptions host') :=
  (alike_record B rfl).bind fun _ => hm.unsubscribeAll.bind fun faults =>
    alike_forM (fun f => alike_report B.toBond hm.answers f _ trivial) faults

theorem alike_letGo : Alike R (letGo host) (letGo host') := by
  refine Alike.bind ?_ fun _ => (alike_tell B hm.answers _ fun _ _ => trivial).bind fun _ => ?_
  · exact (alike_record B rfl).bind fun _ => alike_fire B hm.answers _ _
  · exact (alike_endSubscriptions B hm).bind fun _ => alike_vacate B

theorem alike_unload : Alike R (unload host) (unload host') := by
  refine alike_get B.toBond (fun _ => rfl) fun w => .ite ?_ (alike_log B.toBond _ _ _)
  exact (alike_letGo B hm).bind fun _ => alike_log B.toBond _ _ _

theorem alike_rollBack : Alike R (rollBack host) (rollBack host') :=
  (alike_endSubscriptions B hm).bind fun _ => alike_giveUp B

/-- Scripts are brought up alike once they run alike in new environments. -/
theorem carries_bringUp {path : Path}
    (hr : Carries Q R (runScript host path) (runScript host' path)) :
    Carries Q R (bringUp host path) (bringUp host' path) := by
  refine hr.attempt.bind fun r => ?_
  cases r with
  | ok _ => exact (alike_becomeLoaded B hm.answers path fun _ _ => trivial).bind fun _ => alike_pure _
  | error f =>
    refine .ite ?_ (alike_throw _)
    refine (alike_report B.toBond hm.answers f _ trivial).bind fun _ => ?_
    exact (alike_rollBack B hm).bind fun _ => alike_pure _

theorem alike_bringUp (path : Path) : Alike R (bringUp host path) (bringUp host' path) :=
  carries_bringUp B hm (alike_runScript B hm path)

omit hm in
/-- Loads are alike once their scripts are brought up alike. -/
theorem carries_loadPath {P : World → World → Prop} {path : Path}
    (hr : Carries P Q (record (.load path)) (record (.load path)))
    (hb : Carries Q R (bringUp host path) (bringUp host' path)) :
    Carries P R (loadPath host path) (loadPath host' path) := by
  refine hr.bind_of_ends (fun _ => rfl) fun _ => hb.attempt.bind fun r => ?_
  cases r with
  | ok _ => exact alike_pure _
  | error f => exact (alike_record B rfl).bind fun _ => alike_throw f

theorem alike_loadPath (path : Path) : Alike R (loadPath host path) (loadPath host' path) :=
  carries_loadPath B (alike_record B rfl) (alike_bringUp B hm path)

omit B hm in
theorem alike_bring (B : Bond R p)
    (hl : ∀ path, Alike R (loadPath host path) (loadPath host' path)) (path : Datum) : Alike R
    (match path with
      | .text s => loadPath host (Path.ofString s)
      | d => do throw (.mismatch (.path ((← get).typeName d))))
    (match path with
      | .text s => loadPath host' (Path.ofString s)
      | d => do throw (.mismatch (.path ((← get).typeName d)))) := by
  split
  · exact hl _
  · exact alike_get B (fun _ => rfl) fun _ => alike_throw _

omit B hm in
/-- All loads are alike once those from paths are, and unloading is. -/
theorem alike_load_of (B : Bond R p) (hu : Alike R (unload host) (unload host'))
    (hl : ∀ path, Alike R (loadPath host path) (loadPath host' path)) (path : Datum) :
    Alike R (load host path) (load host' path) := by
  refine alike_get B (fun _ => rfl) fun w => ?_
  dsimp only
  split
  · exact hu.bind fun _ => alike_bring B hl path
  · exact alike_bring B hl path

theorem alike_load (path : Datum) : Alike R (load host path) (load host' path) :=
  alike_load_of B.toBond (alike_unload B hm) (alike_loadPath B hm) path

end

end Op

end ScriptHost
