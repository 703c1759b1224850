import ScriptHost.Border.Install
import ScriptHost.Proofs.Follows

/-!
# The border leaves sessions alone

Values that cross the border, calls over it and the scripts that run behind it are alike for every
bond, as long as the requests of foreign code are. So they have no deeds of their own if these have
none.
-/
namespace ScriptHost.Op

open World
open Script (Eval Question Table Value Wish)

variable {α : Type} {R : World → World → Prop} {p : Fault → Prop} (B : Bond R p)

include B

/-! ### Operators and looks -/

theorem alike_ofSequence (s : Sequence) : Alike R (ofSequence s) (ofSequence s) := by
  cases s with
  | text s => exact alike_pure _
  | list items => exact (alike_newObject B _).map _
  | tuple items => exact (alike_newObject B _).map _

theorem alike_add (a b : Datum) : Alike R (add a b) (add a b) := by
  refine alike_get B (fun _ => rfl) fun w => ?_
  dsimp only
  split
  · exact alike_ofExcept _
  · split <;> first
      | exact alike_throw _
      | exact alike_ofSequence B _
      | exact alike_pure _

theorem alike_sub (a b : Datum) : Alike R (sub a b) (sub a b) := by
  refine alike_get B (fun _ => rfl) fun w => ?_
  split
  · exact alike_ofExcept _
  · exact alike_throw _

theorem alike_repeated (s : Sequence) (times : Datum) :
    Alike R (repeated s times) (repeated s times) := by
  unfold repeated
  split
  · refine alike_check ?_
    split
    · refine alike_check ?_
      exact (alike_ofExcept _).bind fun _ => alike_pure _
    · exact (alike_ofExcept _).bind fun _ => alike_ofSequence B _
    · exact (alike_ofExcept _).bind fun _ => alike_ofSequence B _
  · exact alike_get B (fun _ => rfl) fun _ => alike_throw _

theorem alike_mul (a b : Datum) : Alike R (mul a b) (mul a b) := by
  refine alike_get B (fun _ => rfl) fun w => ?_
  split
  · exact alike_ofExcept _
  · split
    · exact alike_repeated B _ _
    · exact alike_repeated B _ _
    · exact alike_throw _

theorem alike_clamp (value low high : Datum) :
    Alike R (clamp value low high) (clamp value low high) := by
  refine alike_get B (fun _ => by simp only [World.less_bare, World.greater_bare]) fun w =>
    (alike_ofExcept _).bind fun _ => ?_
  exact (alike_ofExcept _).bind fun _ => alike_pure _

theorem alike_operate (op : Operation) (args : List Datum) :
    Alike R (operate op args) (operate op args) := by
  unfold operate
  split
  · exact alike_add B _ _
  · exact alike_sub B _ _
  · exact alike_mul B _ _
  · exact alike_clamp B _ _ _
  · exact alike_pure _

theorem alike_note (sheet : String) (items : List Datum) :
    Alike R (note sheet items) (note sheet items) :=
  alike_get B (fun _ => by simp only [World.look_bare]) fun _ => (alike_ofExcept _).bind fun _ =>
    alike_modify B (fun _ => rfl) fun w => w.apart_outside

/-! ### Values across the border -/

theorem alike_withScripts (f : Script.Heap → α × Script.Heap) :
    Alike R (withScripts f) (withScripts f) :=
  alike_modifyGet B (fun _ => rfl) (fun _ => rfl) fun w => w.apart_outside

theorem alike_newTable (t : Table) : Alike R (newTable t) (newTable t) :=
  alike_withScripts B _

theorem alike_toScript (home : Nat) (d : Datum) : Alike R (toScript home d) (toScript home d) := by
  cases d with
  | int i =>
    dsimp only [toScript]
    split
    · exact alike_pure _
    · exact alike_throw _
  | object p =>
    refine (alike_object B p).bind fun o => ?_
    split <;> exact alike_pure _
  | script h v =>
    dsimp only [toScript]
    refine .ite ?_ (alike_throw _)
    split
    · exact alike_get B (fun _ => rfl) fun _ => alike_pure _
    · exact alike_pure _
  | _ => exact alike_pure _

omit B in
theorem alike_toHost (home : Nat) (v : Value) : Alike R (toHost home v) (toHost home v) := by
  cases v with
  | text b =>
    dsimp only [toHost]
    split
    · exact alike_pure _
    · exact alike_throw _
  | _ => exact alike_pure _

theorem alike_resultsToScript (home : Nat) (d : Datum) :
    Alike R (resultsToScript home d) (resultsToScript home d) := by
  have one :
      Alike R (toScript home d >>= fun v => pure [v]) (toScript home d >>= fun v => pure [v]) :=
    (alike_toScript B home d).bind fun _ => alike_pure _
  cases d with
  | object p =>
    refine (alike_object B p).bind fun o => ?_
    split
    · exact alike_mapM (alike_toScript B home) _
    · exact one
  | _ => exact one

theorem alike_resultsToHost (home : Nat) (vs : List Value) :
    Alike R (resultsToHost home vs) (resultsToHost home vs) := by
  refine (alike_mapM (alike_toHost home) vs).bind fun ds => ?_
  split
  · exact alike_pure _
  · exact alike_pure _
  · exact (alike_newObject B _).map _

theorem alike_setFields (table : Nat) (fields : List (Value × Value)) :
    Alike R (setFields table fields) (setFields table fields) :=
  alike_withScripts B _

/-- Building a container again builds all that is in it. -/
theorem alikeFrom_marshalWithin (home n : Nat) (d : Datum) :
    AlikeFrom R (marshalWithin home n d) := by
  induction n generalizing d with
  | zero => exact alikeFrom_lift (alike_toScript B home d)
  | succ n ih =>
    have set : ∀ t i (v : Value), AlikeFrom R (do
        (setFields t [(i, v)] : Op Unit)
        return ForInStep.yield PUnit.unit : StateT (List (Nat × Nat)) Op _) := fun t i v =>
      (alikeFrom_lift (alike_setFields B _ _)).bind fun _ => alikeFrom_pure _
    unfold marshalWithin
    split
    · refine alikeFrom_get.bind fun made => ?_
      split
      · exact alikeFrom_pure _
      · refine (alikeFrom_lift (alike_object B _)).bind fun o => ?_
        split
        · refine (alikeFrom_lift (alike_newTable B _)).bind fun t => ?_
          refine (alikeFrom_modify _).bind fun _ => ?_
          refine AlikeFrom.bind ?_ fun _ => alikeFrom_pure _
          exact alikeFrom_forIn (fun (x : Datum × Nat) _ => (ih x.1).bind fun v => set t _ v) _ _
        · refine (alikeFrom_lift (alike_newTable B _)).bind fun t => ?_
          refine (alikeFrom_modify _).bind fun _ => ?_
          refine AlikeFrom.bind ?_ fun _ => alikeFrom_pure _
          exact alikeFrom_forIn (fun (x : Datum × Nat) _ => (ih x.1).bind fun v => set t _ v) _ _
        · refine (alikeFrom_lift (alike_newTable B _)).bind fun t => ?_
          refine (alikeFrom_modify _).bind fun _ => ?_
          refine AlikeFrom.bind ?_ fun _ => alikeFrom_pure _
          refine alikeFrom_forIn (fun x _ => ?_) _ _
          exact (alikeFrom_lift (alike_toScript B home x.1)).bind fun k =>
            (ih x.2).bind fun v => set t k v
        · exact alikeFrom_lift (alike_toScript B home _)
    · exact alikeFrom_lift (alike_toScript B home _)

theorem alike_marshal (home : Nat) (d : Datum) : Alike R (marshal home d) (marshal home d) :=
  alike_get B (fun _ => rfl) fun _ => (alikeFrom_marshalWithin B home _ d []).bind fun _ => alike_pure _

/-! ### Calls across the border -/

section

variable {host host' : Responder} (hh : host.Alike R host')

include hh

theorem alike_callObject (place : Nat) (args : List Datum) :
    Alike R (callObject host place args) (callObject host' place args) := by
  refine alike_get B (fun _ => rfl) fun w => ?_
  dsimp only
  split
  · exact alike_perform hh _
  · split
    · exact alike_perform hh _
    · exact alike_throw _
  · split
    · exact alike_perform hh _
    · exact alike_throw _
  · exact alike_throw _

theorem alike_passAttribute (exposed : List Class) (d key : Datum) :
    Alike R (passAttribute host exposed d key) (passAttribute host' exposed d key) := by
  refine alike_get B (fun _ => by simp only [World.shown_bare]; rfl) fun w => ?_
  split
  · exact alike_ofExcept _
  · refine (alike_toHost _ _).bind fun f => (hh _).bind fun answer => ?_
    refine alike_check ?_
    exact .ite (alike_throw _) (alike_pure _)
  · exact alike_throw _
  · exact alike_throw _

end

theorem alike_readAttribute (place : Nat) (name : String) :
    Alike R (readAttribute place name) (readAttribute place name) := by
  refine alike_get B (fun _ => rfl) fun w => ?_
  dsimp only
  split
  · split
    · exact alike_pure _
    · split
      · exact (alike_newObject B _).map _
      · exact alike_throw _
  · exact alike_throw _

theorem alike_writeAttribute (place : Nat) (name : String) (value : Datum) :
    Alike R (writeAttribute place name value) (writeAttribute place name value) := by
  refine alike_get B (fun _ => rfl) fun w => ?_
  split
  · exact alike_setObject B _ _
  · exact alike_throw _

theorem alike_setScripts (h : Script.Heap) : Alike R (setScripts h) (setScripts h) :=
  alike_modify B (fun _ => rfl) fun w => w.apart_outside

theorem alike_setPending (home : Nat) (f : Option Fault) :
    Alike R (setPending home f) (setPending home f) :=
  alike_modify B (fun _ => rfl) fun w => w.apart_homes (by simp)

theorem alike_siteOf (home : Nat) : Alike R (siteOf home) (siteOf home) :=
  alike_get B (fun _ => rfl) fun _ => alike_pure _

theorem alike_setSite (s : Script.Site) : Alike R (setSite s) (setSite s) :=
  alike_modify B (fun _ => rfl) fun w => w.apart_homes (by simp)

theorem alike_faultOf (home : Nat) (v : Value) : Alike R (faultOf home v) (faultOf home v) := by
  refine alike_get B (fun _ => rfl) fun w => ?_
  dsimp only
  split
  · split
    · exact (alike_setPending B _ _).bind fun _ => alike_pure _
    · exact alike_pure _
  · exact alike_pure _

section

variable {host host' : Responder} (hh : host.Alike R host')

include hh

theorem alike_readPart (home place : Nat) (key : Datum) :
    Alike R (readPart host home place key) (readPart host' home place key) := by
  refine alike_get B (fun _ => by simp only [item_bare]; rfl) fun w => .ite (alike_ofExcept _) ?_
  refine (alike_passAttribute B hh _ _ _).bind fun _ => ?_
  exact (alike_ofExcept _).bind fun _ => alike_readAttribute B _ _

theorem alike_writePart (home place : Nat) (key value : Datum) :
    Alike R (writePart host home place key value) (writePart host' home place key value) := by
  refine alike_get B (fun _ => by simp only [withItem_bare]; rfl) fun w => .ite ?_ ?_
  · exact (alike_ofExcept _).bind fun _ => alike_setObject B _ _
  · refine (alike_passAttribute B hh _ _ _).bind fun _ => ?_
    exact (alike_ofExcept _).bind fun _ => alike_writeAttribute B _ _ _

theorem alike_grant (home target : Nat) (wish : Wish) :
    Alike R (grant host home target wish) (grant host' home target wish) := by
  cases wish with
  | call args =>
    refine (alike_object B _).bind fun _ => (alike_mapM (alike_toHost home) _).bind fun _ => ?_
    exact (alike_callObject B hh _ _).bind fun _ => alike_resultsToScript B _ _
  | index key =>
    refine (alike_toHost _ _).bind fun _ => (alike_readPart B hh _ _ _).bind fun _ => ?_
    exact (alike_toScript B _ _).bind fun _ => alike_pure _
  | assign key value =>
    refine (alike_toHost _ _).bind fun _ => (alike_toHost _ _).bind fun _ => ?_
    exact (alike_writePart B hh _ _ _ _).bind fun _ => alike_pure _
  | «show» => exact alike_get B (fun _ => by simp only [World.shown_bare]) fun _ => alike_pure _

theorem alike_answer (q : Question) : Alike R (answer host q) (answer host' q) := by
  refine (alike_setScripts B _).bind fun _ => (alike_siteOf B _).bind fun around => ?_
  refine (alike_setSite B _).bind fun _ => ?_
  refine (alike_grant B hh _ _ _).attempt.bind fun granted => ?_
  refine (alike_setSite B _).bind fun _ => ?_
  cases granted with
  | ok vs => exact alike_get B (fun _ => rfl) fun _ => alike_pure _
  | error f =>
    refine (alike_newObject B _).bind fun _ => (alike_setPending B _ _).bind fun _ => ?_
    exact alike_get B (fun _ => rfl) fun _ => alike_pure _

/-- A script runs, and all it asks for is granted, without a deed of its own. -/
theorem alike_evaluate (home : Nat) (e : Eval α) :
    Alike R (evaluate host home e) (evaluate host' home e) := by
  refine alike_get B (fun _ => rfl) fun w => (alike_run (alike_answer B hh) _).bind fun o => ?_
  cases o with
  | value a h => exact (alike_setScripts B h).bind fun _ => alike_pure _
  | raised v _ h =>
    refine (alike_setScripts B h).bind fun _ => ?_
    exact (alike_faultOf B _ _).bind fun _ => alike_throw _
  | endless h => exact (alike_setScripts B h).bind fun _ => alike_throw _

theorem alike_callScript (home : Nat) (f : Value) (args : List Value) :
    Alike R (callScript host home f args) (callScript host' home f args) := by
  unfold callScript
  split
  · exact (alike_withScripts B _).bind fun _ => alike_pure _
  · refine (alike_siteOf B _).bind fun _ => (alike_evaluate B hh _ _).bind fun _ => ?_
    exact alike_resultsToHost B _ _

theorem alike_callDatum (f : Datum) (args : List Datum) :
    Alike R (callDatum host f args) (callDatum host' f args) := by
  cases f with
  | object p => exact alike_callObject B hh _ _
  | script home v =>
    exact (alike_mapM (alike_toScript B home) _).bind fun _ => alike_callScript B hh _ _ _
  | _ => exact alike_get B (fun _ => rfl) fun _ => alike_throw _

/-! ### Environments -/

theorem alike_getField (home : Nat) (t : Value) (name : String) :
    Alike R (getField host home t name) (getField host' home t name) :=
  (alike_siteOf B _).bind fun _ => (alike_evaluate B hh _ _).bind fun _ => alike_toHost _ _

theorem alike_setField (home : Nat) (t : Value) (name : String) (d : Datum) :
    Alike R (setField host home t name d) (setField host' home t name d) :=
  (alike_toScript B _ _).bind fun _ => (alike_siteOf B _).bind fun _ => alike_evaluate B hh _ _

end

theorem alike_globalsOf (home : Nat) : Alike R (globalsOf home) (globalsOf home) :=
  alike_get B (fun _ => rfl) fun _ => alike_pure _

theorem alike_openEnvironment (keep : List String) (sharesTypes : Bool) :
    Alike R (openEnvironment keep sharesTypes) (openEnvironment keep sharesTypes) := by
  refine alike_get B (fun _ => rfl) fun w => (alike_withScripts B _).bind fun _ => ?_
  refine Alike.bind (alike_modify B (fun _ => rfl) fun w => w.apart_homes (by simp)) fun _ => ?_
  exact .ite ((alike_log B _ _ _).bind fun _ => alike_pure _) (alike_pure _)

omit B in
/-- An environment and its home are added, and it may be logged that something is missing in it. -/
theorem exists_openEnvironment (keep : List String) (sharesTypes : Bool) (w : World) :
    ∃ l, (l = w.log ∨ ∃ e : LogEntry, e.fault = none ∧ l = w.log.push e) ∧
      (openEnvironment keep sharesTypes).outcome w = .ok w.homes.size ∧
      (openEnvironment keep sharesTypes).after w =
        { w with
          scripts := w.scripts.openEnvironment (.foreign absentPlace) keep
          homes := w.homes.push ⟨Text.sorted ((Script.keptGlobals keep).map (·.1)), sharesTypes, none,
            { home := w.homes.size }⟩
          log := l } := by
  have warns : ∀ (c : Prop) [Decidable c] (text : String) (home : Nat) (v : World),
      ∃ l, (l = v.log ∨ ∃ e : LogEntry, e.fault = none ∧ l = v.log.push e) ∧
        (if c then do warning "luahost.lua_env" text; return home
          else return home : Op Nat).outcome v = .ok home ∧
        (if c then do warning "luahost.lua_env" text; return home
          else return home : Op Nat).after v = { v with log := l } := by
    intro c _ text home v
    split
    · exact ⟨_, .inr ⟨_, rfl, rfl⟩, rfl, rfl⟩
    · exact ⟨_, .inl rfl, rfl, rfl⟩
  unfold openEnvironment withScripts
  simp only [outcome_get_bind, after_get_bind, outcome_bind_of_ok (outcome_modifyGet _ w),
    after_bind_of_ok (outcome_modifyGet _ w), outcome_modify_bind, after_modify_bind,
    after_modifyGet]
  exact warns _ _ _ { w with
    scripts := w.scripts.openEnvironment (.foreign absentPlace) keep
    homes := w.homes.push ⟨Text.sorted ((Script.keptGlobals keep).map (·.1)), sharesTypes, none,
      { home := w.homes.size }⟩ }

omit B in
/-- The environment that is opened is new. -/
theorem outcome_openEnvironment (keep : List String) (sharesTypes : Bool) (w : World) :
    (openEnvironment keep sharesTypes).outcome w = .ok w.homes.size ∧
      w.homes.size < ((openEnvironment keep sharesTypes).after w).homes.size := by
  obtain ⟨l, -, ho, ha⟩ := exists_openEnvironment keep sharesTypes w
  rw [ha]
  exact ⟨ho, by simp⟩

theorem alike_modifyFunctionBooks (f : FunctionBooks → FunctionBooks) :
    Alike R (modifyFunctionBooks f) (modifyFunctionBooks f) :=
  alike_modify B (fun _ => rfl) fun w => w.apart_outside

theorem alike_globalNames (home : Nat) : Alike R (globalNames home) (globalNames home) := by
  refine alike_get B (fun _ => by simp only [World.shown_bare]; rfl) fun w =>
    Alike.bind ?_ fun _ => alike_pure _
  exact alike_mapM (fun k => (alike_toHost home k).bind fun _ => alike_pure _) _

theorem alike_isCallable (d : Datum) : Alike R (isCallable d) (isCallable d) := by
  unfold isCallable
  split
  · exact alike_pure _
  · exact alike_pure _
  · exact alike_get B (fun _ => rfl) fun _ => alike_pure _
  · exact alike_pure _

theorem alike_asArgument (home : Nat) (d : Datum) :
    Alike R (asArgument home d) (asArgument home d) := by
  unfold asArgument
  split
  · refine (alike_object B _).bind fun o => .ite ?_ (alike_pure _)
    exact (alike_marshal B _ _).bind fun _ => alike_pure _
  · exact alike_pure _

section

variable {host host' : Responder} (hh : host.Alike R host')

include hh

theorem alike_getGlobal (home : Nat) (name : String) :
    Alike R (getGlobal host home name) (getGlobal host' home name) :=
  (alike_globalsOf B _).bind fun _ => alike_getField B hh _ _ _

theorem alike_setGlobal (home : Nat) (name : String) (d : Datum) :
    Alike R (setGlobal host home name d) (setGlobal host' home name d) :=
  (alike_globalsOf B _).bind fun _ => alike_setField B hh _ _ _ _

theorem alike_spaceTable (home : Nat) (name : String) :
    Alike R (spaceTable host home name) (spaceTable host' home name) := by
  refine (alike_getGlobal B hh _ _).bind fun d => ?_
  split
  · exact alike_pure _
  · refine (alike_newTable B _).bind fun _ => (alike_setGlobal B hh _ _ _).bind fun _ => ?_
    exact alike_pure _

theorem alike_execute (home : Nat) (source : String) :
    Alike R (execute host home source) (execute host' home source) := by
  refine (alike_siteOf B _).bind fun _ => (alike_evaluate B hh _ _).bind fun chunk => ?_
  cases chunk with
  | error message => exact alike_throw _
  | ok f => exact (alike_evaluate B hh _ _).bind fun _ => alike_resultsToHost B _ _

theorem alike_callWith (home : Nat) (f : Datum) (args : List Datum) :
    Alike R (callWith host home f args) (callWith host' home f args) :=
  (alike_mapM (alike_asArgument B home) _).bind fun _ => alike_callDatum B hh _ _

/-! ### Installing -/

theorem alike_install (home : Nat) (d : FunctionDescriptor) :
    Alike R (install host home d) (install host' home d) := by
  refine (alike_spaceTable B hh _ _).bind fun t => (alike_getField B hh _ _ _).bind fun there => ?_
  refine .ite ?_ ?_
  · refine (alike_modifyFunctionBooks B _).bind fun _ => ?_
    exact (alike_log B _ _ _).bind fun _ => alike_pure _
  · refine (alike_perform hh _).bind fun _ => (alike_setField B hh _ _ _ _).bind fun _ => ?_
    refine (alike_modifyFunctionBooks B _).bind fun _ => ?_
    exact (alike_log B _ _ _).bind fun _ => alike_pure _

/-- Functions are installed alike once the books are new. -/
theorem carries_installAll {Q : World → World → Prop} (hb : Carries Q R
      (modifyFunctionBooks fun _ => {}) (modifyFunctionBooks fun _ => {})) (home : Nat)
    (ds : List FunctionDescriptor) :
    Carries Q R (installAll host home ds) (installAll host' home ds) := by
  refine hb.bind fun _ => ?_
  refine (alike_forM (fun d => (alike_install B hh home d).discard) ds).bind fun _ => ?_
  exact alike_get B (fun _ => rfl) fun _ => alike_pure _

theorem alike_installAll (home : Nat) (ds : List FunctionDescriptor) :
    Alike R (installAll host home ds) (installAll host' home ds) :=
  carries_installAll B hh (alike_modifyFunctionBooks B _) home ds

end

/-! ### Deeds -/

omit B

section

variable {host : Responder} (hh : host.Follows)

theorem follows_toScript (home : Nat) (d : Datum) : (toScript home d).Follows :=
  follows_of_alike fun B => alike_toScript B home d

theorem follows_toHost (home : Nat) (v : Value) : (toHost home v).Follows :=
  follows_of_alike fun _ => alike_toHost home v

theorem follows_siteOf (home : Nat) : (siteOf home).Follows :=
  follows_of_alike fun B => alike_siteOf B home

theorem follows_globalsOf (home : Nat) : (globalsOf home).Follows :=
  follows_of_alike fun B => alike_globalsOf B home

theorem follows_openEnvironment (keep : List String) (sharesTypes : Bool) :
    (openEnvironment keep sharesTypes).Follows :=
  follows_of_alike fun B => alike_openEnvironment B keep sharesTypes

theorem follows_isCallable (d : Datum) : (isCallable d).Follows :=
  follows_of_alike fun B => alike_isCallable B d

include hh

theorem follows_callObject (place : Nat) (args : List Datum) :
    (callObject host place args).Follows :=
  hh.follows_of_alike fun B hh => alike_callObject B hh place args

theorem follows_evaluate (home : Nat) (e : Eval α) : (evaluate host home e).Follows :=
  hh.follows_of_alike fun B hh => alike_evaluate B hh home e

theorem follows_getGlobal (home : Nat) (name : String) : (getGlobal host home name).Follows :=
  hh.follows_of_alike fun B hh => alike_getGlobal B hh home name

theorem follows_setGlobal (home : Nat) (name : String) (d : Datum) :
    (setGlobal host home name d).Follows :=
  hh.follows_of_alike fun B hh => alike_setGlobal B hh home name d

theorem follows_execute (home : Nat) (source : String) : (execute host home source).Follows :=
  hh.follows_of_alike fun B hh => alike_execute B hh home source

theorem follows_callWith (home : Nat) (f : Datum) (args : List Datum) :
    (callWith host home f args).Follows :=
  hh.follows_of_alike fun B hh => alike_callWith B hh home f args

theorem follows_installAll (home : Nat) (ds : List FunctionDescriptor) :
    (installAll host home ds).Follows :=
  hh.follows_of_alike fun B hh => alike_installAll B hh home ds

end

end ScriptHost.Op
