import ScriptHost.Proofs.Course

/-!
# The trace of a run

What a host sees of the calls it makes, one after another, where nobody else loads or unloads anything:
a segment for each load and for each unloading, with their steps in a fixed order
(`trace_eq_segments`). Which segments follow one another is decided by whether a script is loaded
(`Alternating`).
-/
namespace ScriptHost

open Files (Path)

/-- Whether a deed is a step of a load or an unloading that scripts, hooks or functions notice. -/
def Deed.isStep : Deed → Bool
  | body _ _ => true
  | d => d.isPlain

/-! ### Segments -/

/-- A part of a trace. -/
inductive Segment where
  /-- A load: the functions that were made, the environment the text ran in if it could be read, and
  whether the script was loaded in the end. -/
  | load (path : Path) (functions : List String) (home : Option Nat) (loaded : Bool)
  | unload (home : Option Nat)

namespace Segment

/-- The steps of a segment. -/
def steps (hooks : Hooks) : Segment → List Deed
  | load path functions home loaded =>
    functions.map .make ++ (hooks.registered.map (.hook .registered) ++
      (home.toList.map (.body · path) ++
        if loaded then hooks.loaded.map (.hook .loaded) ++ [.tell home "OnLoad"] else [.teardown]))
  | unload home => hooks.unloaded.map (.hook .unloaded) ++ [.tell home "OnUnload", .teardown]

/-- Whether a segment is a load that ends with its script loaded. -/
def isSuccess : Segment → Bool
  | load _ _ _ loaded => loaded
  | unload _ => false

def isUnload : Segment → Bool
  | load _ _ _ _ => false
  | unload _ => true

end Segment

/-- Loads begin where no script is loaded, and unloadings where one is. -/
def Alternating : Bool → List Segment → Prop
  | _, [] => True
  | loaded, .load _ _ _ ends :: rest => loaded = false ∧ Alternating ends rest
  | loaded, .unload _ :: rest => loaded = true ∧ Alternating false rest

/-- Until the next load that succeeds, what is loaded is unloaded once, and nothing else is. -/
theorem Alternating.count_unloads {loaded : Bool} {mid post : List Segment} {next : Segment}
    (h : Alternating loaded (mid ++ next :: post)) (hn : next.isSuccess)
    (hmid : ∀ s ∈ mid, s.isSuccess = false) :
    mid.countP Segment.isUnload = if loaded then 1 else 0 := by
  induction mid generalizing loaded with
  | nil =>
    cases next with
    | load path functions home ends =>
      have hl : loaded = false := h.1
      simp [hl]
    | unload home => cases hn
  | cons s mid ih =>
    have hs := hmid s (by simp)
    have hrest : ∀ s ∈ mid, s.isSuccess = false := fun s hm => hmid s (by simp [hm])
    cases s with
    | load path functions home ends =>
      obtain ⟨hl, h⟩ := h
      have he : ends = false := hs
      rw [he] at h
      rw [List.countP_cons_of_neg Bool.false_ne_true, ih h hrest, hl]
    | unload home =>
      obtain ⟨hl, h⟩ := h
      rw [List.countP_cons_of_pos rfl, ih h hrest, hl]
      rfl

/-- Between two loads that succeed there is exactly one unloading. -/
theorem Alternating.one_unload {loaded : Bool} {pre mid post : List Segment} {s next : Segment}
    (h : Alternating loaded (pre ++ s :: (mid ++ next :: post))) (hs : s.isSuccess)
    (hn : next.isSuccess) (hmid : ∀ s ∈ mid, s.isSuccess = false) :
    mid.countP Segment.isUnload = 1 := by
  induction pre generalizing loaded with
  | nil =>
    cases s with
    | load path functions home ends =>
      have he : ends = true := hs
      have hl := Alternating.count_unloads h.2 hn hmid
      simpa [he] using hl
    | unload home => cases hs
  | cons first pre ih =>
    cases first with
    | load path functions home ends => exact ih h.2
    | unload home => exact ih h.2

namespace Op

variable {α : Type} {host : Responder}

/-! ### Traces -/

/-- The steps that an operation takes, its own and those of others. -/
def trace (m : Op α) (w : World) : List Deed :=
  (m.deeds w).filter Deed.isStep

theorem trace_eq {m : Op α} {w : World} {own : List Deed} (h : m.Does w own)
    (alone : Woven.Alone own (m.deeds w)) : m.trace w = own.filter Deed.isStep :=
  h.leads.woven.filter_eq alone fun d hd => by cases d <;> first | rfl | cases hd

theorem filter_isStep_hooks (phase : Phase) (hooks : List Nat) :
    (hooks.map (Deed.hook phase)).filter Deed.isStep = hooks.map (.hook phase) :=
  List.filter_eq_self.2 fun d hd => by
    obtain ⟨hook, _, rfl⟩ := List.mem_map.1 hd
    rfl

theorem filter_farewell (hooks : List Nat) (home : Option Nat) :
    (farewell hooks home).filter Deed.isStep =
      hooks.map (.hook .unloaded) ++ [.tell home "OnUnload", .teardown] := by
  rw [farewell, List.filter_cons_of_neg Bool.false_ne_true, List.filter_append,
    filter_isStep_hooks]
  rfl

theorem filter_course (functions : List String) (home : Nat) (registered told : List Nat)
    (path : Path) (ran : Option Nat) (loaded : Bool) :
    (Deed.load path :: (beginning functions home registered ++
      (ran.toList.map (.body · path) ++ ending path told ran loaded))).filter Deed.isStep =
        functions.map .make ++ (registered.map (.hook .registered) ++
          (ran.toList.map (.body · path) ++
            if loaded then told.map (.hook .loaded) ++ [.tell ran "OnLoad"] else [.teardown])) := by
  have hmake : (functions.map Deed.make).filter Deed.isStep = functions.map .make :=
    List.filter_eq_self.2 fun d hd => by
      obtain ⟨ident, _, rfl⟩ := List.mem_map.1 hd
      rfl
  have hran : (ran.toList.map (Deed.body · path)).filter Deed.isStep =
      ran.toList.map (.body · path) := by cases ran <;> rfl
  have hend : (ending path told ran loaded).filter Deed.isStep =
      if loaded then told.map (.hook .loaded) ++ [.tell ran "OnLoad"] else [.teardown] := by
    cases loaded with
    | true =>
      rw [ending, List.filter_cons_of_neg Bool.false_ne_true, List.filter_append,
        filter_isStep_hooks]
      rfl
    | false => rfl
  rw [List.filter_cons_of_neg Bool.false_ne_true, beginning, List.filter_append,
    List.filter_append, hmake, List.filter_cons_of_neg Bool.false_ne_true, filter_isStep_hooks,
    List.filter_append, hran, hend, List.append_assoc]

end Op

/-! ### Calls -/

/-- A call that a host makes. -/
inductive Call where
  | load (path : String)
  | unload

namespace Call

open Op

/-- Makes a call. -/
def run (host : Responder) : Call → Op Unit
  | load s => discard (Op.load host (.text s))
  | unload => Op.unload host

/-- What a call begins by itself. -/
def starts (w : World) : Call → List Deed
  | load s =>
    if w.session.loaded then [.unload, .load (Path.ofString s)] else [.load (Path.ofString s)]
  | unload => if w.session.loaded then [.unload] else []

/-- Nothing fails during a call that is not guarded, and what is on offer can be bound. -/
def Sound (host : Responder) (w : World) : Call → Prop
  | load s => CanLoad host (Path.ofString s) w ∧
    (buildEnvironment host).Ends (opening (Path.ofString s) (cleared host w))
  | unload => w.session.loaded = true → CanUnload host w

/-- Nobody else loads or unloads anything or edits the hooks during a call. -/
structure Undisturbed (host : Responder) (w : World) (c : Call) : Prop where
  sound : c.Sound host w
  alone : Woven.Alone (c.starts w) ((c.run host).deeds w)
  hooks : ((c.run host).after w).session.hooks = w.session.hooks

/-- What the segment of a load says: all functions on offer were made, in their order, the text ran
if it could be read, and the script is loaded if the text has run to its end. -/
structure Records (host : Responder) (w : World) (s : String) (functions : List String)
    (home : Option Nat) (loaded : Bool) : Prop where
  outcome : (Op.load host (.text s)).outcome w = .ok loaded
  made_all : w.catalog.functions.names <+: functions
  made_only : functions <+: ((Op.load host (.text s)).after w).catalog.functions.names
  home_iff : home.isSome ↔ (sourceAt ((moveIn host).after
    (opening (Path.ofString s) (cleared host w))) (Path.ofString s)).isOk
  loaded_iff : loaded = true ↔
    (runScript host (Path.ofString s)).Ends (opening (Path.ofString s) (cleared host w))

/-- The segments of a call. -/
inductive Yields (host : Responder) (w : World) : Call → List Segment → Prop
  | idle (hl : w.session.loaded = false) : Yields host w unload []
  | unload (hl : w.session.loaded = true) :
    Yields host w unload [.unload w.session.environment]
  | load {s : String} {functions : List String} {home : Option Nat} {loaded : Bool}
    (hl : w.session.loaded = false) (h : Records host w s functions home loaded) :
    Yields host w (load s) [.load (Path.ofString s) functions home loaded]
  | replace {s : String} {functions : List String} {home : Option Nat} {loaded : Bool}
    (hl : w.session.loaded = true) (h : Records host w s functions home loaded) :
    Yields host w (load s)
      [.unload w.session.environment, .load (Path.ofString s) functions home loaded]

/-- A call ends in a value, and its trace is its segments. -/
structure Passage (host : Responder) (w : World) (c : Call) (segments : List Segment) : Prop where
  yields : c.Yields host w segments
  ends : (c.run host).Ends w
  trace_eq : (c.run host).trace w = segments.flatMap (Segment.steps w.session.hooks)
  alternating : ∀ rest, Alternating ((c.run host).after w).session.loaded rest →
    Alternating w.session.loaded (segments ++ rest)

variable {host : Responder}

/-- Where hooks are not edited, those are run that there are. -/
theorem hooks_eq {w w' w'' : World} {phase : Phase} {hooks : List Nat}
    (hall : w.session.hooks.at phase <+: hooks) (honly : hooks <+: w'.session.hooks.at phase)
    (hgrown : World.Grown w' w'') (h : w''.session.hooks = w.session.hooks) :
    hooks = w.session.hooks.at phase := by
  have hl := (honly.trans (hgrown.hooks phase)).length_le
  rw [h] at hl
  exact (hall.eq_of_length_le hl).symm

theorem exists_passage_unload (hh : host.Follows) {w : World}
    (h : Undisturbed host w unload) : ∃ segments, Passage host w unload segments := by
  have alone := h.alone
  cases hl : w.session.loaded with
  | false =>
    obtain ⟨ho, ha⟩ := unload_of_not_loaded host hl
    rw [starts, hl] at alone
    refine ⟨[], .idle hl, ends_iff.2 ⟨_, ho⟩, ?_, fun rest hr => ?_⟩
    · exact Op.trace_eq ((follows_unload hh).does w) alone
    · have hw : ((unload.run host).after w).session.loaded = w.session.loaded :=
        congrArg (fun w => w.session.loaded) ha
      exact hw ▸ hr
  | true =>
    have hends := (ends_unload_iff hl).2 (h.sound hl)
    obtain ⟨hooks, home, hdoes, hall, honly⟩ := does_unload hh hl (h.sound hl)
    rw [starts, hl] at alone
    have alone' : Woven.Alone (farewell hooks home) ((Op.unload host).deeds w) :=
      Woven.Alone.cons alone _
    have hhome := eq_of_admitsAll_farewell (hdoes.leads.woven.admitsAll alone' hdoes.leads.admits)
    have hhooks := hooks_eq hall honly (.refl _) h.hooks
    refine ⟨[.unload w.session.environment], .unload hl, hends, ?_, fun rest hr => ⟨hl, ?_⟩⟩
    · have ht := Op.trace_eq hdoes alone'
      rw [filter_farewell, ← hhome, hhooks] at ht
      exact ht.trans (List.append_nil _).symm
    · have hn : ((unload.run host).after w).session.loaded = false := loaded_after_unload hends
      rwa [hn] at hr

/-- The segment of a load from where the script before is unloaded. -/
theorem exists_records (hh : host.Follows) {s : String} {w : World} (h : Undisturbed host w (load s))
    (hl : (cleared host w).session.loaded = false)
    (ho : (Op.load host (.text s)).outcome w =
      (loadPath host (Path.ofString s)).outcome (cleared host w))
    (ha : (Op.load host (.text s)).after w = (loadPath host (Path.ofString s)).after (cleared host w))
    (hgrown : World.Grown w (cleared host w))
    (hw : (cleared host w).session.hooks = w.session.hooks)
    (alone : Woven.Alone [.load (Path.ofString s)]
      ((loadPath host (Path.ofString s)).deeds (cleared host w))) :
    ∃ functions home loaded, Records host w s functions home loaded ∧
      (loadPath host (Path.ofString s)).trace (cleared host w) =
        (Segment.load (Path.ofString s) functions home loaded).steps w.session.hooks ∧
      (((load s).run host).after w).session.loaded = loaded := by
  obtain ⟨hc, hb⟩ := h.sound
  have hrun : ((load s).run host).after w = _ := (after_discard _ _).trans ha
  have hw' := h.hooks.trans hw.symm
  rw [hrun] at hw'
  obtain ⟨hup, _, _⟩ := deeds_loadPath hh hl hc.brought
  obtain ⟨functions, home, registered, told, ran, loaded, hcourse, hdoes⟩ :=
    exists_course_of_loadPath hh hl hb hc.brought alone
  have alone' := alone.cons
  have hregistered : registered = w.session.hooks.registered :=
    hw ▸ hooks_eq hcourse.registered_all (hup ▸ hcourse.registered_only) (.refl _) hw'
  have htrace := Op.trace_eq hdoes (alone' _)
  rw [filter_course] at htrace
  refine ⟨functions, ran, loaded, ⟨?_, ?_, ?_, hcourse.ran_iff, hcourse.loaded_iff⟩, ?_, ?_⟩
  · rw [ho, outcome_loadPath, hcourse.outcome]
  · exact hgrown.names.trans hcourse.made_all
  · rw [ha, hup]
    exact hcourse.made_only
  · rw [htrace, hregistered, Segment.steps]
    cases loaded with
    | true =>
      have htold : told = w.session.hooks.loaded :=
        hw ▸ hooks_eq (hcourse.told_all rfl) (hup ▸ hcourse.told_only rfl) (.refl _) hw'
      rw [htold]
    | false => rfl
  · have hr := hdoes.leads.holding.trans (hdoes.leads.woven.replay_eq (alone' _) _)
    rw [Holding.replay_cons] at hr
    rw [hrun]
    refine (congrArg Holding.loaded hr).trans ((loaded_replay_course _ _ _ _ _ _ _ _).trans ?_)
    change ((cleared host w).session.loaded || loaded) = loaded
    rw [hl]
    rfl

theorem hooks_ext {h h' : Hooks} (he : ∀ phase, h.at phase = h'.at phase) : h = h' := by
  cases h
  cases h'
  congr
  · exact he .registered
  · exact he .loaded
  · exact he .unloaded

/-- Hooks that are the same in the end were the same in between. -/
theorem hooks_eq_between {w w' w'' : World} (h : World.Grown w w') (h' : World.Grown w' w'')
    (he : w''.session.hooks = w.session.hooks) : w'.session.hooks = w.session.hooks :=
  hooks_ext fun phase => hooks_eq (h.hooks phase) List.prefix_rfl h' he

theorem exists_passage_load_of_not_loaded (hh : host.Follows) {s : String} {w : World}
    (h : Undisturbed host w (load s)) (hl : w.session.loaded = false) :
    ∃ segments, Passage host w (load s) segments := by
  have hw : cleared host w = w := by simp [cleared, hl]
  obtain ⟨ho, ha⟩ := load_of_not_loaded host s hl
  have hd : ((load s).run host).deeds w = (loadPath host (Path.ofString s)).deeds w := by
    unfold Op.deeds
    rw [run, after_discard, ha]
  have alone := h.alone
  rw [starts, hl, hd] at alone
  have hr := exists_records hh h
  rw [hw] at hr
  obtain ⟨functions, home, loaded, hrecords, htrace, hafter⟩ := hr hl ho ha (.refl w) rfl alone
  refine ⟨[.load (Path.ofString s) functions home loaded], .load hl hrecords, ?_, ?_,
    fun rest hr => ⟨hl, ?_⟩⟩
  · exact ends_discard_iff.2 (ends_iff.2 ⟨_, hrecords.outcome⟩)
  · rw [Op.trace, hd]
    exact htrace.trans (List.append_nil _).symm
  · rwa [hafter] at hr

theorem exists_passage_load_of_loaded (hh : host.Follows) {s : String} {w : World}
    (h : Undisturbed host w (load s)) (hl : w.session.loaded = true) :
    ∃ segments, Passage host w (load s) segments := by
  have hc := h.sound.1
  have hends := (ends_unload_iff hl).2 (hc.unloaded hl)
  obtain ⟨_, hu⟩ := ends_iff.1 hends
  let w₁ := (Op.unload host).after w
  have hw : cleared host w = w₁ := by simp [cleared, hl, w₁]
  have hl₁ : w₁.session.loaded = false := loaded_after_unload hends
  obtain ⟨hooks, home, hdoes, hall, honly⟩ := does_unload hh hl (hc.unloaded hl)
  have hpath := follows_loadPath hh (Path.ofString s) hl₁
  have ho : (Op.load host (.text s)).outcome w = (loadPath host (Path.ofString s)).outcome w₁ :=
    (load_of_loaded host s hl).1.trans (outcome_bind_of_ok hu _)
  have ha : (Op.load host (.text s)).after w = (loadPath host (Path.ofString s)).after w₁ :=
    (load_of_loaded host s hl).2.trans (after_bind_of_ok hu _)
  have hrun : ((load s).run host).after w = (loadPath host (Path.ofString s)).after w₁ :=
    (after_discard _ _).trans ha
  have hd : ((load s).run host).deeds w =
      (Op.unload host).deeds w ++ (loadPath host (Path.ofString s)).deeds w₁ := by
    rw [← deeds_bind (k := fun _ => loadPath host (Path.ofString s)) hu hdoes hpath]
    unfold Op.deeds
    rw [hrun, after_bind_of_ok hu]
  have hkept : ((loadPath host (Path.ofString s)).after w₁).session.hooks = w.session.hooks :=
    hrun ▸ h.hooks
  -- What nobody else begins in the whole call nobody else begins in its two parts.
  obtain ⟨_, hd', own, hown⟩ := deeds_loadPath hh hl₁ (hw ▸ hc.brought)
  have hwoven : Woven (.load (Path.ofString s) :: own)
      ((loadPath host (Path.ofString s)).deeds w₁) := hd' ▸ .own _ hown.leads.woven
  have alone := h.alone
  rw [starts, hl, hd] at alone
  obtain ⟨alone, alone'⟩ := hdoes.leads.woven.alone_of_append_pair rfl rfl hwoven alone
  have hfarewell := alone.cons (hooks.map (.hook .unloaded) ++
    [.tell home "OnUnload", .teardown, .vacate])
  have hhome := eq_of_admitsAll_farewell (hdoes.leads.woven.admitsAll hfarewell hdoes.leads.admits)
  have hhooks := hooks_eq hall honly hpath.grown hkept
  have hr := exists_records hh h
  rw [hw] at hr
  obtain ⟨functions, home', loaded, hrecords, htrace, hafter⟩ :=
    hr hl₁ ho ha hdoes.grown (hooks_eq_between hdoes.grown hpath.grown hkept) alone'
  refine ⟨[.unload w.session.environment, .load (Path.ofString s) functions home' loaded],
    .replace hl hrecords, ?_, ?_, fun rest hr => ⟨hl, rfl, ?_⟩⟩
  · exact ends_discard_iff.2 (ends_iff.2 ⟨_, hrecords.outcome⟩)
  · have ht := Op.trace_eq hdoes hfarewell
    rw [filter_farewell, ← hhome, hhooks] at ht
    rw [Op.trace, hd, List.filter_append]
    exact congr (congrArg _ ht) (htrace.trans (List.append_nil _).symm)
  · rwa [hafter] at hr

/-- Step: a call that nobody disturbs adds its segments to the trace, and no more. -/
theorem exists_passage (hh : host.Follows) {w : World} {c : Call} (h : Undisturbed host w c) :
    ∃ segments, Passage host w c segments := by
  cases c with
  | unload => exact exists_passage_unload hh h
  | load s =>
    cases hl : w.session.loaded with
    | false => exact exists_passage_load_of_not_loaded hh h hl
    | true => exact exists_passage_load_of_loaded hh h hl

/-! ### Runs -/

/-- Makes calls, one after another. -/
def runAll (host : Responder) (calls : List Call) : Op Unit :=
  calls.forM (run host)

/-- Nobody disturbs any of the calls. -/
def Orderly (host : Responder) : World → List Call → Prop
  | _, [] => True
  | w, c :: calls => Undisturbed host w c ∧ Orderly host ((c.run host).after w) calls

/-- The segments of a run are those of its calls. -/
inductive Chronicle (host : Responder) : World → List Call → List Segment → Prop
  | nil (w : World) : Chronicle host w [] []
  | cons {w : World} {c : Call} {calls : List Call} {segments rest : List Segment}
    (h : c.Yields host w segments) (hr : Chronicle host ((c.run host).after w) calls rest) :
    Chronicle host w (c :: calls) (segments ++ rest)

theorem follows_run (hh : host.Follows) (c : Call) : (c.run host).Follows := by
  cases c with
  | load s => exact (follows_load hh _).discard
  | unload => exact follows_unload hh

/-- Run: a run that nobody disturbs ends in a value, and its trace is its segments. -/
theorem exists_chronicle (hh : host.Follows) (calls : List Call) (w : World)
    (h : Orderly host w calls) :
    ∃ segments, Chronicle host w calls segments ∧ (runAll host calls).Ends w ∧
      (runAll host calls).trace w = segments.flatMap (Segment.steps w.session.hooks) ∧
      Alternating w.session.loaded segments := by
  induction calls generalizing w with
  | nil =>
    have hd : (runAll host []).deeds w = [] := (World.Leads.refl w).deeds_eq.symm
    refine ⟨[], .nil w, rfl, ?_, trivial⟩
    rw [Op.trace, hd]
    rfl
  | cons c calls ih =>
    obtain ⟨hc, h⟩ := h
    obtain ⟨segments, hp⟩ := exists_passage hh hc
    obtain ⟨rest, hr, hends, htrace, halt⟩ := ih _ h
    obtain ⟨_, ho⟩ := ends_iff.1 hp.ends
    have hd : (runAll host (c :: calls)).deeds w =
        (c.run host).deeds w ++ (runAll host calls).deeds ((c.run host).after w) :=
      deeds_bind ho ((follows_run hh c).does w) ((follows_forM (follows_run hh) calls).does _)
    obtain ⟨_, hall⟩ := ends_iff.1 hends
    refine ⟨segments ++ rest, .cons hp.yields hr, ?_, ?_, hp.alternating rest halt⟩
    · exact ends_bind_iff.2 ⟨_, ho, hends⟩
    · rw [hc.hooks] at htrace
      rw [Op.trace, hd, List.filter_append, List.flatMap_append]
      exact congr (congrArg _ hp.trace_eq) htrace

/-- The trace of a run that nobody disturbs is a segment for each load and each unloading. Between
two loads that succeed there is exactly one unloading. -/
theorem trace_eq_segments (n : Nat) (calls : List Call) (w : World)
    (h : Orderly (respond n) w calls) :
    ∃ segments, Chronicle (respond n) w calls segments ∧ (runAll (respond n) calls).Ends w ∧
      (runAll (respond n) calls).trace w = segments.flatMap (Segment.steps w.session.hooks) ∧
      ∀ pre s mid next post, segments = pre ++ s :: (mid ++ next :: post) → s.isSuccess →
        next.isSuccess → (∀ t ∈ mid, t.isSuccess = false) → mid.countP Segment.isUnload = 1 := by
  obtain ⟨segments, hc, hends, htrace, halt⟩ := exists_chronicle (follows_respond n) calls w h
  refine ⟨segments, hc, hends, htrace, fun pre s mid next post he hs hn hmid => ?_⟩
  rw [he] at halt
  exact halt.one_unload hs hn hmid

/-- A world with one script, and with a hook in each phase. -/
def oneScript : World where
  files := (default : Files.Node).put (.file (Text.encode "x = 1")) ["a.lua"]
  session := { hooks := ⟨[1], [2], [3]⟩ }

/-- A script is loaded, and is unloaded for another that is missing. -/
theorem trace_eq_segments_of_missing : ∃ segments,
    Chronicle (respond 5) oneScript [load "a.lua", load "b.lua"] segments ∧
      (runAll (respond 5) [load "a.lua", load "b.lua"]).trace oneScript =
        segments.flatMap (Segment.steps ⟨[1], [2], [3]⟩) := by
  have first : Undisturbed (respond 5) oneScript (load "a.lua") := by
    refine ⟨⟨(ends_load_iff _ _ _).1 ?_, ?_⟩, ?_, hooks_ext fun phase => ?_⟩
    · decide +kernel
    · decide +kernel
    · decide +kernel
    · cases phase <;> decide +kernel
  have second : Undisturbed (respond 5) (((load "a.lua").run (respond 5)).after oneScript)
      (load "b.lua") := by
    refine ⟨⟨(ends_load_iff _ _ _).1 ?_, ?_⟩, ?_, hooks_ext fun phase => ?_⟩
    · decide +kernel
    · decide +kernel
    · decide +kernel
    · cases phase <;> decide +kernel
  obtain ⟨segments, hc, _, ht, _⟩ :=
    trace_eq_segments 5 [load "a.lua", load "b.lua"] oneScript ⟨first, second, trivial⟩
  exact ⟨segments, hc, ht⟩

end Call

end ScriptHost
