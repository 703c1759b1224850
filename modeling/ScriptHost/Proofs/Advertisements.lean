import ScriptHost.Proofs.Coherence
import ScriptHost.Proofs.Lines

/-!
# Commands that are listed

A table of commands is told by what was registered last (`Commands.Holds`): the handler of a name is
the one it was registered with last, and a name is listed with the last help text that was given for it.
A name in a line of input counts in lower case. So a command that is listed is reached as long as its
name is in lower case itself, and otherwise its line is for whatever is registered in lower case
(`answers_listed`).
-/
namespace ScriptHost

open Text (IsWord)

/-- A command that is registered. -/
structure Registration where
  name : String
  handler : CommandHandler
  help : String
  deriving DecidableEq

namespace Registration

/-- The handler a name was registered with last. -/
def latestHandler (rs : List Registration) (name : String) : Option CommandHandler :=
  (rs.reverse.find? fun r => r.name = name).map (·.handler)

/-- The last help text that was given for a name, none of them empty. -/
def latestHelp (rs : List Registration) (name : String) : Option String :=
  (rs.reverse.find? fun r => r.name = name ∧ r.help ≠ "").map (·.help)

variable {rs : List Registration} {r : Registration} {name : String}

theorem latestHandler_concat : latestHandler (rs ++ [r]) name =
    if r.name = name then some r.handler else latestHandler rs name := by
  unfold latestHandler
  rw [List.reverse_concat, List.find?_cons]
  by_cases h : r.name = name <;> simp [h]

theorem latestHelp_concat : latestHelp (rs ++ [r]) name =
    if r.name = name ∧ r.help ≠ "" then some r.help else latestHelp rs name := by
  unfold latestHelp
  rw [List.reverse_concat, List.find?_cons]
  by_cases h : r.name = name ∧ r.help ≠ "" <;> simp [h]

/-- A name that was given a help text was registered. -/
theorem isSome_latestHandler {text : String} (h : latestHelp rs name = some text) :
    (latestHandler rs name).isSome := by
  obtain ⟨r, hr, -⟩ := Option.map_eq_some_iff.mp h
  have hname : r.name = name := by
    have := List.find?_some hr
    simp only [decide_eq_true_eq] at this
    exact this.1
  rw [latestHandler, Option.isSome_map, List.find?_isSome]
  exact ⟨r, List.mem_of_find?_eq_some hr, by simpa using hname⟩

end Registration

open Registration (latestHandler latestHelp)

/-- The commands every host has, in the order they are registered. -/
def coreRegistrations : List Registration :=
  coreCommands.map fun (name, command, help) => ⟨name, .core command, help⟩

/-! ### Tables of commands -/

namespace Commands

/-- Registers one command after another. -/
def registerAll (c : Commands) (rs : List Registration) : Commands :=
  rs.foldl (fun c r => c.register r.name r.handler r.help) c

/-- A table of commands holds what was registered. -/
structure Holds (c : Commands) (rs : List Registration) : Prop where
  handlers : ∀ name, c.handlers.find? name = latestHandler rs name
  helps : ∀ name, c.helps.find? name = latestHelp rs name
  found : ∀ x ∈ c.helps.entries, c.helps.find? x.1 = some x.2
  once : c.helps.names.Nodup

variable {c : Commands} {rs : List Registration}

theorem Holds.register (h : c.Holds rs) (r : Registration) :
    (c.register r.name r.handler r.help).Holds (rs ++ [r]) where
  handlers name := by
    rw [Commands.register, Roster.find?_put, h.handlers, Registration.latestHandler_concat]
    exact if_congr eq_comm rfl rfl
  helps name := by
    rw [Commands.register, Registration.latestHelp_concat, ← h.helps]
    by_cases he : r.help = ""
    · simp [he]
    · simp only [he, if_false, Roster.find?_put, ne_eq, not_false_eq_true, and_true]
      exact if_congr eq_comm rfl rfl
  found := by
    unfold Commands.register
    split
    · exact h.found
    · exact Roster.find?_put_of_mem h.found _ _
  once := by
    unfold Commands.register
    split
    · exact h.once
    · exact Roster.nodup_names_put h.once _ _

theorem Holds.registerAll (h : c.Holds rs) (more : List Registration) :
    (c.registerAll more).Holds (rs ++ more) := by
  induction more generalizing c rs with
  | nil => rwa [List.append_nil]
  | cons r more ih =>
    rw [List.append_cons]
    exact ih (h.register r)

theorem holds_start (lead : Option String) (chat : Option Nat) :
    (start lead chat).Holds coreRegistrations := by
  have hnone : ({ lead, chat } : Commands).Holds [] :=
    ⟨fun _ => rfl, fun _ => rfl, nofun, List.nodup_nil⟩
  have hcore := hnone.registerAll coreRegistrations
  rwa [List.nil_append, Commands.registerAll, coreRegistrations, List.foldl_map] at hcore

theorem lead_registerAll (c : Commands) (rs : List Registration) :
    (c.registerAll rs).lead = c.lead := by
  induction rs generalizing c with
  | nil => rfl
  | cons r rs ih => exact ih _

/-- What is listed is the help text of each name, once. -/
theorem Holds.mem_helps_iff (h : c.Holds rs) {name text : String} :
    (name, text) ∈ c.helps.entries ↔ latestHelp rs name = some text := by
  rw [← h.helps]
  exact ⟨h.found (name, text), Roster.mem_of_find?⟩

end Commands

/-- The command that a request registers. -/
def Request.registration : Request → Option Registration
  | registerCommand name help place => some ⟨name, .foreign place, help⟩
  | _ => none

namespace Op

variable {w : World}

/-- A host that registers commands does nothing else. -/
theorem after_askAll_register (n : Nat) {qs : List Request}
    (hq : ∀ q ∈ qs, q.registration.isSome) (w : World) : (askAll (n + 1) qs).after w =
      { w with commands := w.commands.registerAll (qs.filterMap Request.registration) } := by
  induction qs generalizing w with
  | nil => rfl
  | cons q qs ih =>
    obtain ⟨r, hr⟩ := Option.isSome_iff_exists.mp (hq q List.mem_cons_self)
    have hstep : (respond (n + 1) q).after w =
        { w with commands := w.commands.register r.name r.handler r.help } := by
      cases q <;> cases hr
      rfl
    rw [after_askAll_cons, hstep, ih fun q hm => hq q (List.mem_cons_of_mem _ hm),
      List.filterMap_cons_some hr]
    rfl

/-- How a command is listed. -/
def listedLine (lead name text : String) : String :=
  s!"{lead} {name} - {text}"

/-- **Commands that are listed.** A host registers commands besides those every host has. Each name is
listed once, with the last help text that was given for it, and such a name has a handler. The line of
a command that is listed does what is registered last in the lower case of the name; where that is the
name itself, it goes to the handler that was registered last under it. -/
theorem answers_listed (n : Nat) {lead : String} (hlead : IsWord lead.toList) {chat : Option Nat}
    {qs : List Request} (hq : ∀ q ∈ qs, q.registration.isSome)
    (hw : w.commands = Commands.start (some lead) chat) :
    let u := (askAll (n + 1) qs).after w
    let rs := coreRegistrations ++ qs.filterMap Request.registration
    (∃ listed : List (String × String),
      (helpLines lead).outcome u = .ok (listed.map fun x => listedLine lead x.1 x.2) ∧
      (listed.map (·.1)).Nodup ∧
      ∀ name text, (name, text) ∈ listed ↔ latestHelp rs name = some text) ∧
    ∀ name text, IsWord name.toList → latestHelp rs name = some text →
      ∃ handler, latestHandler rs name = some handler ∧ ∀ host given author,
        AgreeAt (runCommandLine host (plainLine lead name given) author)
          (answerCommand host lead author (Text.lowered name) (Text.strip given)
            (latestHandler rs (Text.lowered name))) u ∧
        (Text.lowered name = name →
          AgreeAt (runCommandLine host (plainLine lead name given) author)
            (do enterCommand author name (Text.strip given)
                runHandler host lead (Text.strip given) handler) u) := by
  intro u rs
  have hu : u = _ := after_askAll_register n hq w
  have hholds : u.commands.Holds rs := by
    rw [hu, hw]
    exact (Commands.holds_start (some lead) chat).registerAll _
  have hl : u.commands.lead = some lead := by
    rw [hu]
    exact (Commands.lead_registerAll _ _).trans (by rw [hw]; rfl)
  refine ⟨⟨u.commands.helps.entries, rfl, hholds.once, fun _ _ => hholds.mem_helps_iff⟩,
    fun name text hname htext => ?_⟩
  obtain ⟨handler, hh⟩ := Option.isSome_iff_exists.mp (Registration.isSome_latestHandler htext)
  refine ⟨handler, hh, fun host given author => ?_⟩
  obtain ⟨x, hx, hxn, hxg⟩ := exists_plain_wording lead hname given
  have hr := agreeAt_of_command host author (hl ▸ x.read_line hlead)
  rw [hx, hxn, hxg, hholds.handlers] at hr
  refine ⟨hr, fun hlower => ?_⟩
  rwa [hlower, hh] at hr

/-- Replies to what a command is given. -/
def pong : Callable where
  type := "function"
  shown := "<function pong>"
  run args := Program.request (.createList (.text "pong" :: args))

/-- A host with a function for a command. -/
def equipped : World :=
  { furnished with objects := #[.absent, .callable pong] }

/-- The command is registered in lower case, and twice, the second time without a help text. -/
def pings : List Request :=
  [.registerCommand "ping" "Replies." 0, .registerCommand "ping" "" 1]

/-- It is listed with the text it was given first and goes to the handler it was given last. -/
theorem answers_listed_of_pings :
    let u := (askAll 1 pings).after equipped
    (∃ listed : List (String × String),
      (helpLines "lua").outcome u = .ok (listed.map fun x => listedLine "lua" x.1 x.2) ∧
        ("ping", "Replies.") ∈ listed) ∧
      AgreeAt (runCommandLine (respond 5) "lua ping a" "host")
        (do enterCommand "host" "ping" "a"; runHandler (respond 5) "lua" "a" (.foreign 1)) u := by
  intro u
  have hlast : latestHandler (coreRegistrations ++ pings.filterMap Request.registration) "ping" =
      some (.foreign 1) := by decide +kernel
  have htext : latestHelp (coreRegistrations ++ pings.filterMap Request.registration) "ping" =
      some "Replies." := by decide +kernel
  have hgiven : Text.strip "a" = "a" := by decide +kernel
  have hlead : IsWord "lua".toList := by decide +kernel
  have hpings : ∀ q ∈ pings, q.registration.isSome := by decide +kernel
  obtain ⟨⟨listed, hlines, -, hlisted⟩, hreach⟩ :=
    answers_listed 0 (w := equipped) hlead hpings rfl
  obtain ⟨handler, hh, hgo⟩ := hreach "ping" "Replies." (by decide +kernel) htext
  obtain rfl := Option.some.inj (hlast.symm.trans hh)
  have hrun := (hgo (respond 5) "a" "host").2 (by decide +kernel)
  have hline : plainLine "lua" "ping" "a" = "lua ping a" := by decide +kernel
  rw [hgiven, hline] at hrun
  exact ⟨⟨listed, hlines, (hlisted _ _).mpr htext⟩, hrun⟩

/-- The command is registered with a capital letter. -/
def capital : List Request :=
  [.registerCommand "Ping" "Replies." 1]

/-- The items of an object that is a list. -/
def itemsOf : Option Object → List Datum
  | some (.list items) => items
  | _ => []

/-- It is listed, but its line is replied to as unknown, and the handler does not run. -/
theorem not_answers_of_capital :
    let u := (askAll 1 capital).after equipped
    (∃ lines, (helpLines "lua").outcome u = .ok lines ∧ "lua Ping - Replies." ∈ lines) ∧
      latestHandler (coreRegistrations ++ capital.filterMap Request.registration) "Ping" =
        some (.foreign 1) ∧
      ∀ entered, ¬ AgreeAt (runCommandLine (respond 5) "lua Ping a" "host")
        (do enterCommand "host" entered "a"; runHandler (respond 5) "lua" "a" (.foreign 1)) u := by
  intro u
  have hlisted : "lua Ping - Replies." ∈
      u.commands.helps.entries.map fun x => listedLine "lua" x.1 x.2 := by decide +kernel
  refine ⟨⟨_, rfl, hlisted⟩, by decide +kernel, fun entered h => ?_⟩
  have hunknown : itemsOf ((runCommandLine (respond 5) "lua Ping a" "host").after u).objects[2]? =
      [.text "Unknown command: lua ping. Try 'lua help'."] := by decide +kernel
  have hpong : ((runHandler (respond 5) "lua" "a" (.foreign 1)).after
      ((enterCommand "host" entered "a").after u)).objects[2]? =
        some (.list [.text "pong", .text "a"]) := rfl
  rw [h.2, after_bind_of_ok rfl, hpong] at hunknown
  exact absurd (congrArg List.length hunknown) (by decide)

end Op

end ScriptHost
