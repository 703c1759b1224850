import ScriptHost.Proofs.Replies
import ScriptHost.Proofs.Steadiness
import ScriptHost.Proofs.Words

/-!
# Where lines of input go

A line of input goes one of five ways, told by its first two words (`read_eq`): a line that is blank
nowhere, chat to whoever takes it, the lead word alone to the list of commands, and a command to its
handler, if it has one. However a command is written, with whatever blanks and in whatever case, its
handler is given just what it is to be given (`runCommandLine_routes`).
-/
namespace ScriptHost

open Text (IsWord AllBlank BeginsBlank firstWord afterWord)

namespace Control.CommandLine

/-- What a line of input is, by its first two words. -/
theorem read_eq (lead : Option String) (line : String) : read lead line =
    if AllBlank line.toList then .blank
    else if lead = some (String.ofList (firstWord line.toList)) then
      if AllBlank (afterWord line.toList) then .bare (String.ofList (firstWord line.toList))
      else .command (String.ofList (firstWord line.toList))
        (String.ofList (Text.lower (firstWord (afterWord line.toList))))
        (String.ofList (Text.trim (afterWord (afterWord line.toList))))
    else .chat (Text.strip line) := by
  unfold read
  by_cases h : AllBlank line.toList
  · rw [if_pos h, Text.trim_of_allBlank h, Text.splitWords_of_allBlank 2 Text.allBlank_nil]
  · have hcut : Text.splitWords 2 (Text.trim line.toList) =
        firstWord line.toList :: Text.splitWords 1 (Text.trimEnd (afterWord line.toList)) := by
      rw [Text.trim_eq_of_not_allBlank h]
      exact Text.splitWords_append 1 Text.allBlank_nil (Text.isWord_firstWord h)
        (Text.beginsBlank_afterWord _).trimEnd
    rw [if_neg h, hcut]
    refine if_congr Iff.rfl ?_ rfl
    by_cases ha : AllBlank (afterWord line.toList)
    · rw [if_pos ha, Text.trimEnd_of_allBlank ha,
        Text.splitWords_of_allBlank 1 Text.allBlank_nil]
    · obtain ⟨front, word, rest, hr, hf, hw, hb⟩ := Text.exists_words ha
      rw [if_neg ha, hr, Text.firstWord_append hf hw hb, Text.afterWord_append hf hw hb,
        Text.trimEnd_append_word front rest hw, Text.splitWords_append 0 hf hw hb.trimEnd]
      dsimp only
      rw [Text.headD_splitWords_zero, Text.dropWhile_trimEnd]

/-- The lead word alone, with blanks around it. -/
theorem read_bare {lead line : String} (hlead : IsWord lead.toList) (h : Text.strip line = lead) :
    read (some lead) line = .bare lead := by
  have htrim : Text.trim line.toList = lead.toList := by
    rw [← h, Text.strip, String.toList_ofList]
  obtain ⟨front, back, hf, hb, hline⟩ := Text.exists_trim line.toList
  rw [htrim] at hline
  have hfirst : firstWord line.toList = lead.toList := by
    rw [hline, Text.firstWord_append hf hlead hb.beginsBlank]
  have hafter : afterWord line.toList = back := by
    rw [hline, Text.afterWord_append hf hlead hb.beginsBlank]
  have hblank : ¬ AllBlank line.toList := by
    rw [hline]
    exact hlead.not_allBlank _ _
  rw [read_eq, if_neg hblank, hfirst, String.ofList_toList, if_pos rfl, hafter, if_pos hb]

end Control.CommandLine

/-- A command as it can be written: the lead word, a name in any case and what the command is given,
with blanks around and between. -/
structure Wording (lead : String) where
  front : String := ""
  gap : String
  spelled : String
  behind : String := ""
  given : String := ""
  back : String := ""
  isWord : IsWord (Text.lower spelled.toList)
  isTrimmed : Text.strip given = given
  blank_front : AllBlank front.toList
  blank_gap : AllBlank gap.toList
  blank_behind : AllBlank behind.toList
  blank_back : AllBlank back.toList
  gap_ne : gap ≠ ""
  behind_ne : given ≠ "" → behind ≠ ""

namespace Wording

variable {lead : String} (x : Wording lead)

/-- The name of the command that is meant. -/
def name : String :=
  Text.lowered x.spelled

def line : String :=
  x.front ++ lead ++ x.gap ++ x.spelled ++ x.behind ++ x.given ++ x.back

theorem toList_line : x.line.toList = x.front.toList ++ (lead.toList ++
    (x.gap.toList ++ (x.spelled.toList ++ (x.behind.toList ++ (x.given.toList ++ x.back.toList))))) := by
  simp [line]

theorem isWord_spelled : IsWord x.spelled.toList :=
  Text.isWord_lower_iff.mp x.isWord

theorem beginsBlank_behind :
    BeginsBlank (x.behind.toList ++ (x.given.toList ++ x.back.toList)) := by
  refine x.blank_behind.beginsBlank_append fun h => ?_
  have hb : x.behind = "" := String.toList_eq_nil_iff.mp h
  have hg : x.given = "" := by
    by_contra hg
    exact x.behind_ne hg hb
  rw [hg]
  exact x.blank_back.beginsBlank

theorem beginsBlank_gap : BeginsBlank (x.gap.toList ++ (x.spelled.toList ++
    (x.behind.toList ++ (x.given.toList ++ x.back.toList)))) :=
  x.blank_gap.beginsBlank_append fun h => absurd (String.toList_eq_nil_iff.mp h) x.gap_ne

variable (hlead : IsWord lead.toList)
include hlead

/-- A command that is written is read as the command that is meant. -/
theorem read_line : Control.CommandLine.read (some lead) x.line = .command lead x.name x.given := by
  have hfirst : firstWord x.line.toList = lead.toList := by
    rw [toList_line]
    exact Text.firstWord_append x.blank_front hlead x.beginsBlank_gap
  have hafter : afterWord x.line.toList = x.gap.toList ++ (x.spelled.toList ++
      (x.behind.toList ++ (x.given.toList ++ x.back.toList))) := by
    rw [toList_line]
    exact Text.afterWord_append x.blank_front hlead x.beginsBlank_gap
  have hline : ¬ AllBlank x.line.toList := by
    rw [toList_line]
    exact hlead.not_allBlank _ _
  have hrest : ¬ AllBlank (afterWord x.line.toList) := by
    rw [hafter]
    exact x.isWord_spelled.not_allBlank _ _
  have hgiven : Text.trim x.given.toList = x.given.toList := by
    rw [← String.toList_ofList (l := Text.trim x.given.toList)]
    exact congrArg String.toList x.isTrimmed
  rw [Control.CommandLine.read_eq, if_neg hline, hfirst, String.ofList_toList, if_pos rfl,
    if_neg hrest, hafter, Text.firstWord_append x.blank_gap x.isWord_spelled x.beginsBlank_behind,
    Text.afterWord_append x.blank_gap x.isWord_spelled x.beginsBlank_behind,
    Text.trim_append x.blank_behind x.blank_back, hgiven, String.ofList_toList]
  rfl

end Wording

/-- A line that begins with the lead word is that alone or a command that is written. -/
theorem exists_wording {lead line : String} (hblank : ¬ AllBlank line.toList)
    (hfirst : String.ofList (firstWord line.toList) = lead) (hmore : Text.strip line ≠ lead) :
    ∃ x : Wording lead, x.line = line := by
  obtain ⟨front, word, rest, hline, hf, hw, hr⟩ := Text.exists_words hblank
  have hlead : String.ofList word = lead := by
    rwa [hline, Text.firstWord_append hf hw hr] at hfirst
  have hrest : ¬ AllBlank rest := by
    intro ha
    refine hmore ?_
    rw [Text.strip, Text.trim_eq_of_not_allBlank hblank, hline, Text.firstWord_append hf hw hr,
      Text.afterWord_append hf hw hr, Text.trimEnd_of_allBlank ha, List.append_nil, hlead]
  obtain ⟨gap, spelled, more, rfl, hg, hs, hm⟩ := Text.exists_words hrest
  obtain ⟨behind, back, hb, hk, hgiven⟩ := Text.exists_trim more
  refine ⟨{
    front := .ofList front
    gap := .ofList gap
    spelled := .ofList spelled
    behind := .ofList behind
    given := .ofList (Text.trim more)
    back := .ofList back
    isWord := by simpa [Text.isWord_lower_iff] using hs
    isTrimmed := by simp [Text.strip, Text.trim_trim]
    blank_front := by simpa using hf
    blank_gap := by simpa using hg
    blank_behind := by simpa using hb
    blank_back := by simpa using hk
    gap_ne := by simpa using hr.ne_nil_of_word hs
    behind_ne := fun hne hnil => ?_ }, ?_⟩
  · rw [ne_eq, String.ofList_eq_empty_iff] at hne
    obtain rfl := String.ofList_eq_empty_iff.mp hnil
    rw [hgiven] at hm
    exact hne (Text.trim_eq_nil_of_beginsBlank hm)
  · rw [← String.toList_inj, Wording.toList_line, hline, ← hlead]
    simp only [String.toList_ofList]
    rw [← hgiven]

/-- The plain way to write a command. -/
def plainLine (lead name given : String) : String :=
  s!"{lead} {name} {given}"

theorem exists_plain_wording (lead : String) {name : String} (hname : IsWord name.toList)
    (given : String) : ∃ x : Wording lead, x.line = plainLine lead name given ∧
      x.name = Text.lowered name ∧ x.given = Text.strip given := by
  obtain ⟨front, back, hf, hb, hgiven⟩ := Text.exists_trim given.toList
  have hspace : AllBlank " ".toList := by decide
  refine ⟨{
    gap := " "
    spelled := name
    behind := " " ++ .ofList front
    given := Text.strip given
    back := .ofList back
    isWord := Text.isWord_lower_iff.mpr hname
    isTrimmed := by simp [Text.strip, Text.trim_trim]
    blank_front := by decide
    blank_gap := hspace
    blank_behind := by
      rw [String.toList_append]
      exact List.forall_mem_append.mpr ⟨hspace, by simpa [AllBlank] using hf⟩
    blank_back := by simpa using hb
    gap_ne := by decide
    behind_ne := fun _ => by simp }, ?_, rfl, rfl⟩
  have hline : plainLine lead name given = lead ++ " " ++ name ++ " " ++ given := rfl
  rw [hline, ← String.toList_inj, Wording.toList_line]
  simp [Text.strip, ← hgiven]

/-- A command to load a script asks for the name that is written. -/
theorem Control.CommandLine.read_load {lead name : String} (hlead : IsWord lead.toList)
    (hname : Text.strip name = name) :
    read (some lead) s!"{lead} load {name}" = .command lead "load" name := by
  have hload : IsWord "load".toList := by decide
  have hlower : Text.lowered "load" = "load" := by decide +kernel
  have hline : plainLine lead "load" name = s!"{lead} load {name}" := by
    have hmid : " " ++ "load" ++ " " = " load " := by decide
    show lead ++ " " ++ "load" ++ " " ++ name = lead ++ " load " ++ name
    rw [← hmid]
    simp only [String.append_assoc]
  obtain ⟨x, hx, hxn, hxg⟩ := exists_plain_wording lead hload name
  rw [← hline, ← hx, x.read_line hlead, hxn, hlower, hxg, hname]

namespace Op

/-! ### The ways a line can go -/

/-- Tells a line to whoever takes the chat. -/
def tellChat (host : Responder) (author text : String) : Op Unit := do
  match (← get).commands.chat with
  | some place => discard (callObject host place [.text author, .text text])
  | none => return ()

/-- Notes a command that comes in. -/
def enterCommand (author name given : String) : Op Unit :=
  info "luahost.commands" s!"Command from {author}: {name} {given}"

/-- What the handler of a command does with what the command is given. -/
def runHandler (host : Responder) (lead given : String) : CommandHandler → Op Datum
  | .core command => do newTexts (← runCore host lead command given)
  | .foreign place => callObject host place [.text given]

/-- The reply to a command that nobody handles. -/
def unknownCommand (lead name : String) : String :=
  s!"Unknown command: {lead} {name}. Try '{lead} help'."

/-- What a command does that has a handler or none. -/
def answerCommand (host : Responder) (lead author name given : String) :
    Option CommandHandler → Op Datum
  | some handler => do enterCommand author name given; runHandler host lead given handler
  | none => do enterCommand author name given; newTexts [unknownCommand lead name]

/-- The reply for a name by which a script is to be loaded. -/
def loadReply (name : String) : Bool → Op Datum
  | true => do newTexts [s!"Loaded {← shownPath}"]
  | false => newTexts [notLoaded name]

open Control (CommandLine)

section

variable {host : Responder} {w : World} {lead line name given author : String}

theorem agreeAt_of_blank (h : CommandLine.read w.commands.lead line = .blank) :
    AgreeAt (runCommandLine host line author) (newList []) w := by
  refine agreeAt_get_bind ?_
  simp only [h]
  exact .refl _ _

theorem agreeAt_of_chat {text : String} (h : CommandLine.read w.commands.lead line = .chat text) :
    AgreeAt (runCommandLine host line author)
      (do tellChat host author text; newList []) w := by
  refine agreeAt_get_bind ?_
  simp only [h]
  have htold : AgreeAt (match w.commands.chat with
      | some place => discard (callObject host place [.text author, .text text])
      | none => pure ()) (tellChat host author text) w := ⟨rfl, rfl⟩
  cases hc : w.commands.chat with
  | none =>
    rw [hc] at htold
    exact htold.bind (k := fun _ => newList []) fun _ _ => .refl _ _
  | some place =>
    rw [hc] at htold
    exact htold.bind fun _ _ => .refl _ _

theorem agreeAt_of_bare (h : CommandLine.read w.commands.lead line = .bare lead) :
    AgreeAt (runCommandLine host line author) (do newTexts (← helpLines lead)) w := by
  refine agreeAt_get_bind ?_
  simp only [h]
  exact .refl _ _

theorem agreeAt_of_command (host : Responder) (author : String)
    (h : CommandLine.read w.commands.lead line = .command lead name given) :
    AgreeAt (runCommandLine host line author)
      (answerCommand host lead author name given (w.commands.handlers.find? name)) w := by
  refine agreeAt_get_bind ?_
  simp only [h]
  cases w.commands.handlers.find? name with
  | none => exact .refl _ _
  | some handler => cases handler <;> exact .refl _ _

/-- The command to load a script and another process that asks for it look for the same name. -/
theorem agreeAt_load (hn : given ≠ "") (ht : Text.strip given = given) :
    AgreeAt (runHandler host lead given (.core .load))
      (do loadReply given (← tryLoad host given)) w := by
  have hload : runCore host lead .load given = tryLoad host given >>= fun loaded =>
      if loaded then do return [s!"Loaded {← shownPath}"] else return [notLoaded given] := by
    show (if Text.strip given = "" then _ else _) = _
    rw [ht, if_neg hn]
    rfl
  show AgreeAt (runCore host lead .load given >>= newTexts) _ w
  rw [hload, bind_assoc]
  refine AgreeAt.bind (.refl _ _) fun loaded _ => ?_
  cases loaded with
  | false => exact .refl _ _
  | true =>
    rw [if_pos rfl, bind_assoc]
    exact .refl _ _

theorem agreeAt_serve_load {path : Option String} (hn : name ≠ "") (hp : path.getD "" = "")
    (hy : w.application.reachable = true) :
    AgreeAt (serve host (.load (some name) path)) (do discard (tryLoad host name); status) w := by
  refine agreeAt_get_bind ?_
  simp only [hp, hy, Option.getD_some, Bool.not_true, Bool.false_eq_true, if_false]
  exact .refl _ _

end

/-- **Where lines of input go.** A command goes to the handler of its name with just what it is given,
however it is written: with whatever blanks around and between, and in whatever case. Without a handler
it is replied to as unknown. A blank line does nothing, a line that begins with another word is told to
whoever takes the chat, and the lead word alone lists the commands; there are no other lines. So the
command to load a script and another process that asks for it have the same name looked for. -/
theorem runCommandLine_routes (host : Responder) {lead : String} (author : String) {w : World}
    (hlead : w.commands.lead = some lead) (hword : IsWord lead.toList) :
    (∀ x : Wording lead,
      (∀ handler, w.commands.handlers.find? x.name = some handler →
        AgreeAt (runCommandLine host x.line author)
          (do enterCommand author x.name x.given; runHandler host lead x.given handler) w) ∧
      (w.commands.handlers.find? x.name = none →
        AgreeAt (runCommandLine host x.line author)
          (do enterCommand author x.name x.given; newTexts [unknownCommand lead x.name]) w)) ∧
    (∀ line : String,
      (AllBlank line.toList → AgreeAt (runCommandLine host line author) (newList []) w) ∧
      (¬ AllBlank line.toList → String.ofList (firstWord line.toList) ≠ lead →
        AgreeAt (runCommandLine host line author)
          (do tellChat host author (Text.strip line); newList []) w) ∧
      (Text.strip line = lead →
        AgreeAt (runCommandLine host line author) (do newTexts (← helpLines lead)) w) ∧
      (¬ AllBlank line.toList → String.ofList (firstWord line.toList) = lead →
        Text.strip line ≠ lead → ∃ x : Wording lead, x.line = line)) ∧
    (w.commands.handlers.find? "load" = some (.core .load) → ∀ name, name ≠ "" →
      Text.strip name = name →
        AgreeAt (runCommandLine host s!"{lead} load {name}" author)
          (do enterCommand author "load" name; loadReply name (← tryLoad host name)) w ∧
        ∀ path : Option String, path.getD "" = "" → w.application.reachable = true →
          AgreeAt (serve host (.load (some name) path))
            (do discard (tryLoad host name); status) w) := by
  refine ⟨fun x => ?_, fun line => ⟨fun hb => ?_, fun hb hf => ?_, fun hs => ?_, exists_wording⟩,
    fun hc name hn ht => ⟨?_, fun path => agreeAt_serve_load hn⟩⟩
  · have hr := agreeAt_of_command host author (hlead ▸ x.read_line hword)
    exact ⟨fun _ hc => by rwa [hc] at hr, fun hc => by rwa [hc] at hr⟩
  · refine agreeAt_of_blank ?_
    rw [CommandLine.read_eq, if_pos hb]
  · refine agreeAt_of_chat ?_
    rw [CommandLine.read_eq, if_neg hb, hlead, if_neg fun he => hf (Option.some.inj he).symm]
  · exact agreeAt_of_bare (hlead ▸ CommandLine.read_bare hword hs)
  · have hr := hlead ▸ CommandLine.read_load hword ht
    have hgo := agreeAt_of_command host author hr
    rw [hc] at hgo
    exact hgo.trans ((AgreeAt.refl _ _).bind fun _ _ => agreeAt_load hn ht)

/-- A script is asked for with odd blanks and letters. -/
def oddly : Wording "lua" where
  front := "\t "
  gap := "  "
  spelled := "LoAd"
  behind := "\u3000"
  given := "a  b"
  back := " \n"
  isWord := by decide +kernel
  isTrimmed := by decide +kernel
  blank_front := by decide +kernel
  blank_gap := by decide +kernel
  blank_behind := by decide +kernel
  blank_back := by decide +kernel
  gap_ne := by decide
  behind_ne := fun _ => by decide

/-- The same script is asked for in an odd way, by another process, and in the chat. -/
theorem runCommandLine_routes_of_oddly :
    let w : World := { furnished with application := { reachable := true } }
    oddly.line = "\t lua  LoAd\u3000a  b \n" ∧
      AgreeAt (runCommandLine (respond 5) oddly.line "host")
        (do enterCommand "host" "load" "a  b"; runHandler (respond 5) "lua" "a  b" (.core .load)) w ∧
      AgreeAt (serve (respond 5) (.load (some "a  b") none))
        (do discard (tryLoad (respond 5) "a  b"); status) w ∧
      AgreeAt (runCommandLine (respond 5) " Lua load a  b" "host")
        (do tellChat (respond 5) "host" "Lua load a  b"; newList []) w := by
  intro w
  have hlead : w.commands.lead = some "lua" := rfl
  have hload : w.commands.handlers.find? "load" = some (.core .load) := by decide +kernel
  have hname : oddly.name = "load" := by decide +kernel
  have hchat : Text.strip " Lua load a  b" = "Lua load a  b" := by decide +kernel
  obtain ⟨hcommand, hline, hby⟩ :=
    runCommandLine_routes (respond 5) "host" hlead (by decide +kernel)
  refine ⟨by decide +kernel, ?_, ?_, ?_⟩
  · have := (hcommand oddly).1 (.core .load) (by rw [hname, hload])
    rwa [hname] at this
  · exact (hby hload "a  b" (by decide) (by decide +kernel)).2 none rfl rfl
  · have := (hline " Lua load a  b").2.1 (by decide +kernel) (by decide +kernel)
    rwa [hchat] at this

end Op

end ScriptHost
