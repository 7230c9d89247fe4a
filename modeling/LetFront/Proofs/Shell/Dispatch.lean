/-
What the shell does with a line. A line is told apart by the text between the blanks at its ends: by a question mark at
its front, or else by its first word, the longest front of it that is made of command characters. Four words are
commands; every other line is a text, and its tokens are listed as it was typed. No line is lost and none halts the
shell.

`Asks line c`: by its front, a line asks for the command `c`.

Main statements: `asks_ofLine`, a line is taken for what it asks for; `tells_obey`, what a command tells; `tells_answer`,
what a line tells; `answer_total`, the same told by the front of the line.
-/
import LetFront.Proofs.Token.Listing
import LetFront.Shell

namespace LetFront.Shell

/-! ## The parts of a line -/

/-- a line without the blanks at its ends -/
def stripped (line : String) : List Char := Text.trim line.toList

/-- the longest front of a stripped line that may be a command word -/
def firstWord (line : String) : String := String.ofList ((stripped line).takeWhile isCommandChar)

/-- what follows the first word, without the blanks at its ends -/
def argument (line : String) : String := String.ofList (Text.trim ((stripped line).dropWhile isCommandChar))

/-- the first words that are commands -/
def commandWords : List String := ["parse", "help", "EOF", "exit"]

/-- an empty line has no first word -/
theorem firstWord_of_nil {line : String} (h : stripped line = []) : firstWord line = "" := by
  unfold firstWord
  rw [h]
  rfl

/-- a question mark is no command character -/
theorem firstWord_of_mark {line : String} (h : (stripped line).head? = some '?') : firstWord line = "" := by
  obtain ⟨cs, hcs⟩ := List.head?_eq_some_iff.1 h
  unfold firstWord
  rw [hcs]
  rfl

theorem front_of_firstWord {line : String} (h : firstWord line ≠ "") :
    stripped line ≠ [] ∧ (stripped line).head? ≠ some '?' := by
  constructor
  · intro hnil
    exact h (firstWord_of_nil hnil)
  · intro hmark
    exact h (firstWord_of_mark hmark)

/-! ## Which command a line is -/

inductive Asks (line : String) : Command → Prop
  | nothing (h : stripped line = []) : Asks line .nothing
  | question (h : (stripped line).head? = some '?') : Asks line .help
  | parse (h : firstWord line = "parse") : Asks line (.parse (argument line))
  | help (h : firstWord line = "help") : Asks line .help
  | endOfInput (h : firstWord line = "EOF") : Asks line .endOfInput
  | exit (h : firstWord line = "exit") : Asks line .exit
  /-- also where an exclamation mark stands in front: then there is no first word -/
  | listTokens (hne : stripped line ≠ []) (hmark : (stripped line).head? ≠ some '?')
      (hword : firstWord line ∉ commandWords) : Asks line .listTokens

theorem asks_named {line : String} (hne : stripped line ≠ []) (hmark : (stripped line).head? ≠ some '?') :
    Asks line (named ((stripped line).takeWhile isCommandChar) ((stripped line).dropWhile isCommandChar)) := by
  unfold named
  split
  · next h => exact .parse h
  · next h => exact .help h
  · next h => exact .endOfInput h
  · next h => exact .exit h
  · next hparse hhelp heof hexit =>
    refine .listTokens hne hmark ?_
    simp only [commandWords, List.mem_cons, List.not_mem_nil, or_false, not_or]
    exact ⟨hparse, hhelp, heof, hexit⟩

/-- **A line is taken for what it asks for.** -/
theorem asks_ofLine (line : String) : Asks line (.ofLine line) := by
  have hline : Text.trim line.toList = stripped line := rfl
  unfold Command.ofLine
  rw [hline]
  by_cases hmark : (stripped line).head? = some '?'
  · obtain ⟨cs, hcs⟩ := List.head?_eq_some_iff.1 hmark
    rw [hcs]
    exact .question hmark
  · have hspelled : spellHelp (stripped line) = stripped line := by
      unfold spellHelp
      split
      · next h => exact absurd (congrArg List.head? h) hmark
      · rfl
    rw [hspelled]
    split
    · next h => exact .nothing h
    · next cs h =>
      -- an exclamation mark is no command character
      have hnamed := asks_named (by rw [h]; exact List.cons_ne_nil _ _) hmark
      rw [h] at hnamed
      exact hnamed
    · next h _ => exact asks_named h hmark

/-! ## What a command tells -/

/-- the tokens of a line as they are listed -/
def listing (line : String) : String := String.join ((tokens line).map fun t => t.render ++ "\n")

/-- the reports of the errors in a source, in order, and its program -/
def parsing (on : Bool) (path source : String) : String :=
  String.join ((Program.ofString source).errors.map (reportText on path source)) ++
    ((Program.ofString source).display ++ "\n")

structure Reply where
  stop : Bool
  text : String
  errors : ℕ
  deriving DecidableEq, Repr

/-- what a shell tells at a command -/
def Command.reply (on : Bool) (s : Shell) : Command → Reply
  | .nothing => ⟨false, "", 0⟩
  | .listTokens => ⟨false, listing s.typed, 0⟩
  | .parse source => ⟨false, parsing on s.session.path source, (Program.ofString source).errors.length⟩
  | .help => ⟨false, helpText ++ "\n", 0⟩
  | .endOfInput => ⟨true, "\n", 0⟩
  | .exit => ⟨true, "", 0⟩

theorem tells_listing (on : Bool) (line : String) :
    Tells on ((tokens line).forM (Reporting.print ·.render)) () (listing line) 0 := tells_listed on (tokens line)

/-- **A command is obeyed**, whatever was said before, and halts nothing. -/
theorem tells_obey (on : Bool) (s : Shell) (c : Command) :
    Tells on (s.obey c) (c.reply on s).stop (c.reply on s).text (c.reply on s).errors := by
  cases c with
  | nothing => exact tells_pure false
  | listTokens =>
    have hlist := (tells_listing on s.typed).guarded
    exact (hlist.bind (f := fun _ => pure false) (tells_pure false)).cast String.append_empty rfl
  | parse source =>
    have hparse := tells_parse on s.session source
    have hshow := hparse.bind (f := fun p => Reporting.print p.display) (tells_print _)
    exact (hshow.guarded.bind (f := fun _ => pure false) (tells_pure false)).cast String.append_empty rfl
  | help => exact .cast ((tells_print helpText).before (tells_pure false)) String.append_empty rfl
  | endOfInput => exact .cast ((tells_print "").before (tells_pure true)) rfl rfl
  | exit => exact tells_pure true

/-- **A line is answered.** What is told depends on the line, on the name of the session and on the painting. -/
theorem tells_answer (on : Bool) (s : Shell) (line : String) :
    Tells on (s.answer line) ((Command.ofLine line).reply on (s.note line)).stop
      ((Command.ofLine line).reply on (s.note line)).text ((Command.ofLine line).reply on (s.note line)).errors :=
  tells_obey on _ _

/-- **Every line is answered, and none is lost.** No line halts the shell, and it is left at `exit` and at the end of the
input only. A line that is not empty, does not ask for help and is no command is listed as it was typed; errors are only
counted for what a parse command is given. -/
theorem answer_total (s : Shell) (line : String) (r : Reporter) :
    ∃ stop text n,
      (s.answer line).runOn r = (.ok stop, { r with errors := r.errors + n, printed := r.printed ++ text }) ∧
      (stop = true ↔ firstWord line = "exit" ∨ firstWord line = "EOF") ∧
      (stripped line = [] ∨ firstWord line = "exit" → text = "" ∧ n = 0) ∧
      (firstWord line = "EOF" → text = "\n" ∧ n = 0) ∧
      ((stripped line).head? = some '?' ∨ firstWord line = "help" → text = helpText ++ "\n" ∧ n = 0) ∧
      (firstWord line = "parse" → text = parsing r.painted s.session.path (argument line) ∧
        n = (Program.ofString (argument line)).errors.length) ∧
      (stripped line ≠ [] → (stripped line).head? ≠ some '?' → firstWord line ∉ commandWords →
        text = listing line ∧ n = 0) := by
  refine ⟨_, _, _, tells_answer r.painted s line rfl, ?_⟩
  have hasks := asks_ofLine line
  generalize Command.ofLine line = c at hasks ⊢
  cases hasks with
  | nothing h =>
    simp [Command.reply, h, firstWord_of_nil h]
  | question h =>
    have hword := firstWord_of_mark h
    have hne : stripped line ≠ [] := fun hnil => by simp [hnil] at h
    simp [Command.reply, h, hword, hne]
  | parse h =>
    obtain ⟨hne, hmark⟩ := front_of_firstWord (h.trans_ne (by decide))
    simp [Command.reply, h, hne, hmark, commandWords, note]
  | help h =>
    obtain ⟨hne, hmark⟩ := front_of_firstWord (h.trans_ne (by decide))
    simp [Command.reply, h, hne, hmark, commandWords]
  | endOfInput h =>
    obtain ⟨hne, hmark⟩ := front_of_firstWord (h.trans_ne (by decide))
    simp [Command.reply, h, hne, hmark, commandWords]
  | exit h =>
    obtain ⟨hne, hmark⟩ := front_of_firstWord (h.trans_ne (by decide))
    simp [Command.reply, h, hne, hmark, commandWords]
  | listTokens hne hmark hword =>
    simp only [commandWords, List.mem_cons, List.not_mem_nil, or_false, not_or] at hword
    obtain ⟨hparse, hhelp, heof, hexit⟩ := hword
    simp [Command.reply, hne, hmark, hparse, hhelp, heof, hexit, note]

/-- a parse command with a line feed behind its word, and a line with an exclamation mark in front of a command word -/
theorem answer_total_of_parse :
    let s := Shell.new ⟨Session.typedName, true, ""⟩
    firstWord " parse\nx" = "parse" ∧ firstWord "!exit" ∉ commandWords ∧
      (s.answer " parse\nx").runOn (.new false false) =
        (.ok false, ⟨false, false, 1,
          "<in>:1:0: error: unexpected token: Identifier\n  x\n  ^\n" ++
          "Program(statements=[], errors=[\n    At line=1, col=0: unexpected token: Identifier\n])\n"⟩) ∧
      ((s.answer "!exit").runOn (.new false false)).2.printed =
        "Token(Not, '!', 1:0)\nToken(Identifier, 'exit', 1:1)\nToken(EOF, '', 1:5)\n" := by
  intro s
  have hword : firstWord " parse\nx" = "parse" := by decide
  have hmark : firstWord "!exit" ∉ commandWords := by decide
  obtain ⟨stop, text, n, hrun, hstop, -, -, -, hparse, -⟩ := answer_total s " parse\nx" (.new false false)
  obtain ⟨_, listed, _, hrun', -, -, -, -, -, hlist⟩ := answer_total s "!exit" (.new false false)
  obtain ⟨htext, hn⟩ := hparse hword
  obtain ⟨hlisted, -⟩ := hlist (by decide) (by decide) hmark
  have hstay : stop = false := by
    rw [← Bool.not_eq_true, hstop, hword]
    decide
  refine ⟨hword, hmark, ?_, ?_⟩
  · rw [hrun, hstay, htext, hn]
    exact congrArg (Prod.mk (Except.ok false)) (by decide +kernel)
  · rw [hrun', hlisted]
    change "" ++ listing "!exit" = _
    decide +kernel

end LetFront.Shell
