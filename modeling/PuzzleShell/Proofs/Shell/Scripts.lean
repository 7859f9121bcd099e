import PuzzleShell.Proofs.Path.NormalForm
import PuzzleShell.Proofs.Shell.Echoes
import PuzzleShell.Proofs.Shell.Modes
import PuzzleShell.Proofs.Text.Words

/-!
# Running scripts

A script is run by a dot and a slash in front of a word that names it. The word is resolved without
the two, which makes no difference unless it is fixed. A script of blank lines, comments and `echo`
lines prints what those `echo` lines print when they are typed.
-/

namespace PuzzleShell

theorem Command.ofName?_dotSlash (w : String) : ofName? ("./" ++ w) = none := by
  refine ofName?_eq_none fun hmem => ?_
  have hdot : Text.startsWith "./" ("./" ++ w) = true := Path.startsWith_append (by decide) w
  have hall : ∀ name ∈ names, Text.startsWith "./" name = false := by decide +kernel
  rw [hall _ hmem] at hdot
  cases hdot

theorem Outcome.hasErrors_print (texts : List String) : (print texts).hasErrors = false := by
  simp [print, hasErrors, Line.output]

def Shell.scriptTexts (content : String) : List String :=
  (Text.cuts '\n' content).filterMap Shell.scriptLine?

section Running

variable {context : Context} {s : State} {line w name : String} {args : List String}
  {data : FileData} (hline : Text.words line = ("./" ++ w) :: args)
include hline

theorem execute_script (hfile : s.tree.lookup (Path.resolve w s.cwd) = some (.file name data)) :
    execute context s line =
      if data.executable then .print (Shell.scriptTexts data.content)
      else .fail ("./" ++ w ++ ": Permission denied") := by
  let r : Request := ⟨"./" ++ w, args, s, context⟩
  have hscript : Text.drop 2 r.name = w := by
    simp [r, Text.drop]
  have hdot : Text.startsWith "./" r.name = true := Path.startsWith_append (by decide) w
  change r.lookup w = _ at hfile
  rw [execute_of_words hline, Shell.answer, Command.ofName?_dotSlash]
  dsimp only
  rw [Shell.runOther, if_pos hdot]
  unfold Shell.runScript
  dsimp only
  rw [hscript, hfile]
  rfl

theorem execute_script_marked {o : Outcome} {executable : Bool}
    (hmarks : o.Marks s (Path.resolve w s.cwd) executable)
    (hfile : s.tree.lookup (Path.resolve w s.cwd) = some (.file name data)) :
    execute context (o.patch.apply s) line =
      if executable then .print (Shell.scriptTexts data.content)
      else .fail ("./" ++ w ++ ": Permission denied") := by
  obtain ⟨hcwd, hmarked⟩ := hmarks.lookup hfile
  rw [← hcwd] at hmarked
  rw [execute_script hline hmarked]
  rfl

/-- A dot and a slash in front of a word run the executable file that the whole names, also when it
has just been made executable. The word must not be fixed: a fixed word names one place on its own
and another one behind the dot and the slash, and a script is looked for at the first. -/
theorem execute_dotSlash (context : Context) (hw : ¬ Path.IsFixed w)
    (hfile : s.tree.lookup (Path.resolve ("./" ++ w) s.cwd) = some (.file name data)) :
    (data.executable = true →
      execute context s line = .print (Shell.scriptTexts data.content) ∧
      (execute context s line).hasErrors = false) ∧
    ∀ change, Text.words change = ["chmod", "+x", "./" ++ w] →
      (execute context s change).hasErrors = false →
      execute context ((execute context s change).patch.apply s) line =
        .print (Shell.scriptTexts data.content) := by
  have hplace : s.tree.lookup (Path.resolve w s.cwd) = some (.file name data) := by
    rwa [Path.resolve_dotSlash hw] at hfile
  constructor
  · intro hexec
    have hrun : execute context s line = .print (Shell.scriptTexts data.content) := by
      rw [execute_script hline hplace, if_pos hexec]
    exact ⟨hrun, hrun ▸ Outcome.hasErrors_print _⟩
  · intro change hchange hclean
    have hmarks := execute_chmod_of_clean hchange rfl hfile hclean
    rw [Path.resolve_dotSlash hw] at hmarks
    exact execute_script_marked hline hmarks hplace

end Running

/-- The script lies in the directory above. -/
theorem execute_dotSlash_above :
    let lines := ["mkdir d", "echo 'echo  hi' > run", "chmod 755 run", "cd d"]
    let s := (inTurn (execute {}) {} lines).2
    execute {} s "./../run" = .print ["hi"] ∧
      execute {} ((execute {} s "chmod +x ./../run").patch.apply s) "./../run" = .print ["hi"] := by
  intro lines s
  have hfile : s.tree.lookup (Path.resolve ("./" ++ "../run") s.cwd) =
      some (.file "run" ({ content := "echo hi\n" : FileData }.mark true)) := by decide +kernel
  have hline : Text.words "./../run" = ["./" ++ "../run"] := by decide +kernel
  have hchange : Text.words "chmod +x ./../run" = ["chmod", "+x", "./" ++ "../run"] := by
    decide +kernel
  have hprinted : Outcome.print (Shell.scriptTexts "echo hi\n") = .print ["hi"] := by
    decide +kernel
  obtain ⟨hrun, hmarked⟩ := execute_dotSlash hline {} (by decide +kernel) hfile
  exact ⟨(hrun rfl).1.trans hprinted, (hmarked _ hchange (by decide +kernel)).trans hprinted⟩

/-- A fixed word: the script that the whole names is there and can be executed, and is not found. -/
theorem execute_dotSlash_home :
    let turn := inTurn (execute {}) {} ["echo 'echo hi' > ./~", "chmod +x ./~"]
    turn.1 = [] ∧ turn.2.tree.lookup (Path.resolve "./~" turn.2.cwd) =
      some (.file "~" ({ content := "echo hi\n" : FileData }.mark true)) ∧
    execute {} turn.2 "./~" = .fail "./~: Is a directory" := by
  decide +kernel

namespace Shell

/-- A line of a plain script: blanks, a comment, or an `echo` with single spaces between its words
and without a redirection. -/
inductive ScriptLine : String → Prop
  | blank {line : String} (h : Text.Blank line) : ScriptLine line
  | comment {before : String} (h : Text.Blank before) (text : String) :
      ScriptLine (before ++ "#" ++ text)
  | echo {before after : String} {words : List String} (hbefore : Text.Blank before)
      (hafter : Text.Blank after) (hne : words ≠ [])
      (hwords : ∀ w ∈ words, Text.IsWord w ∧ w ≠ ">" ∧ w ≠ ">>") :
      ScriptLine (before ++ " ".intercalate ("echo" :: words) ++ after)

def isEchoLine (line : String) : Bool := (Text.words line).head? == some "echo"

structure Prints (line text : String) : Prop where
  echo : isEchoLine line = true
  scripted : scriptLine? line = some text
  typed : ∀ context s, execute context s line = .print [text]

structure Skipped (line : String) : Prop where
  notEcho : isEchoLine line = false
  scripted : scriptLine? line = none

theorem skipped_blank {line : String} (h : Text.Blank line) : Skipped line := by
  have hline : line ++ "" ++ "" = line := by simp
  have hstrip : Text.strip line = "" := by
    rw [← hline, Text.strip_surrounded h Text.blank_empty]
    rfl
  constructor
  · rw [isEchoLine, ← Text.words_strip, hstrip]
    rfl
  · rw [scriptLine?, hstrip]
    rfl

theorem skipped_comment {before : String} (h : Text.Blank before) (text : String) :
    Skipped (before ++ "#" ++ text) := by
  have hline : before ++ "#" ++ text = before ++ String.ofList ('#' :: text.toList) ++ "" := by
    rw [String.append_empty, String.append_assoc, String.ofList_cons, String.ofList_toList]
    rfl
  have hhash : Text.isBlank '#' = false := by decide
  constructor
  · obtain ⟨w, hw⟩ := Text.head?_words_cons hhash text.toList
    have hother : String.ofList ('#' :: w) ≠ "echo" := by
      intro he
      have hchars := congrArg String.toList he
      simp at hchars
    rw [isEchoLine, hline, Text.words_surrounded h Text.blank_empty, hw]
    simpa using hother
  · have hother : ¬ Text.startsWith "echo "
        (Text.strip (String.ofList ('#' :: text.toList))) = true := by
      rw [Text.startsWith, Text.toList_strip_cons hhash]
      simp
    unfold scriptLine?
    rw [hline, Text.strip_surrounded h Text.blank_empty]
    exact if_neg hother

theorem prints_echo {before after : String} {words : List String} (hbefore : Text.Blank before)
    (hafter : Text.Blank after) (hne : words ≠ [])
    (hwords : ∀ w ∈ words, Text.IsWord w ∧ w ≠ ">" ∧ w ≠ ">>") :
    Prints (before ++ " ".intercalate ("echo" :: words) ++ after) (echoText words) := by
  have hecho : Text.IsWord "echo" := by decide +kernel
  have hall : ∀ w ∈ "echo" :: words, Text.IsWord w :=
    List.forall_mem_cons.2 ⟨hecho, fun w hw => (hwords w hw).1⟩
  have hline : Text.words (before ++ " ".intercalate ("echo" :: words) ++ after) =
      "echo" :: words := by
    rw [Text.words_surrounded hbefore hafter, Text.words_spaced hall]
  have hspaced : " ".intercalate ("echo" :: words) = "echo " ++ " ".intercalate words :=
    String.intercalate_cons_of_ne_nil hne
  refine ⟨?_, ?_, fun context s => execute_echo (fun w hw => (hwords w hw).2) hline⟩
  · rw [isEchoLine, hline]
    rfl
  · have hstart : Text.startsWith "echo " ("echo " ++ " ".intercalate words) = true :=
      Path.startsWith_append (by decide) _
    have hrest : Text.drop 5 ("echo " ++ " ".intercalate words) = " ".intercalate words := by
      rw [Text.drop, String.toList_append]
      exact String.ofList_toList
    unfold scriptLine?
    rw [Text.strip_surrounded hbefore hafter, Text.strip_spaced hall, hspaced]
    dsimp only
    rw [if_pos hstart, hrest]
    rfl

theorem ScriptLine.skipped_or_prints {line : String} (h : ScriptLine line) :
    Skipped line ∨ ∃ text, Prints line text := by
  cases h with
  | blank h => exact .inl (skipped_blank h)
  | comment h text => exact .inl (skipped_comment h text)
  | echo hbefore hafter hne hwords => exact .inr ⟨_, prints_echo hbefore hafter hne hwords⟩

theorem inTurn_echoLines (context : Context) (s : State) {lines : List String}
    (h : ∀ line ∈ lines, ScriptLine line) :
    inTurn (execute context) s (lines.filter isEchoLine) =
      ((lines.filterMap scriptLine?).map .output, s) := by
  induction lines with
  | nil => rfl
  | cons line lines ih =>
    obtain ⟨hline, hlines⟩ := List.forall_mem_cons.1 h
    rcases hline.skipped_or_prints with hskip | ⟨text, hprint⟩
    · rw [List.filter_cons_of_neg (by simp [hskip.notEcho]), ih hlines,
        List.filterMap_cons_none hskip.scripted]
    · rw [List.filter_cons_of_pos hprint.echo, inTurn, hprint.typed,
        List.filterMap_cons_some hprint.scripted]
      dsimp only [Outcome.print]
      rw [Patch.apply_empty, ih hlines]
      rfl

theorem scriptTexts_intercalate {lines : List String} (h : ∀ line ∈ lines, Text.FitsLine line) :
    scriptTexts ("\n".intercalate lines) = lines.filterMap scriptLine? := by
  by_cases hne : lines = []
  · subst hne
    decide +kernel
  · rw [scriptTexts, Text.cuts_intercalate hne h]

end Shell

/-- An executable script of plain lines prints what its `echo` lines print when they are typed one
by one, and changes nothing. Without the right to execute it there is an error instead. To give or
to take this right changes nothing else. -/
theorem scripts_echo (context : Context) {s : State} (hroot : s.tree.root.isDir = true)
    {w name : String} {data : FileData} {lines : List String}
    (hfile : s.tree.lookup (Path.resolve w s.cwd) = some (.file name data))
    (hcontent : data.content = "\n".intercalate lines)
    (hlines : ∀ line ∈ lines, Text.FitsLine line ∧ Shell.ScriptLine line) {on off line : String}
    (hon : Text.words on = ["chmod", "+x", w]) (hoff : Text.words off = ["chmod", "-x", w])
    (hline : Text.words line = ["./" ++ w]) :
    (∀ state, execute context ((execute context s on).patch.apply s) line =
      { lines := (inTurn (execute context) state (lines.filter Shell.isEchoLine)).1 }) ∧
    execute context ((execute context s off).patch.apply s) line =
      .fail ("./" ++ w ++ ": Permission denied") ∧
    (execute context s on).Marks s (Path.resolve w s.cwd) true ∧
    (execute context s off).Marks s (Path.resolve w s.cwd) false := by
  have hmarks : (execute context s on).Marks s (Path.resolve w s.cwd) true :=
    execute_chmod_of_root hon rfl hfile hroot
  have hunmarks : (execute context s off).Marks s (Path.resolve w s.cwd) false :=
    execute_chmod_of_root hoff rfl hfile hroot
  refine ⟨fun state => ?_, execute_script_marked hline hunmarks hfile, hmarks, hunmarks⟩
  have htexts : Shell.scriptTexts data.content = lines.filterMap Shell.scriptLine? := by
    rw [hcontent, Shell.scriptTexts_intercalate fun line hmem => (hlines line hmem).1]
  rw [execute_script_marked hline hmarks hfile, htexts, Shell.inTurn_echoLines context state
    fun line hmem => (hlines line hmem).2]
  rfl

/-- A comment, quoted words between blanks, a line of blanks, and a lone quote. -/
theorem scripts_echo_mixed :
    let tree := FileTree.base.write "/home/user/run" "#!/bin/sh\n\techo \"a b\" \n\u3000\necho x'"
    let s : State := { tree := tree.toOption.getD .base }
    execute {} ((execute {} s "chmod +x run").patch.apply s) "./run" = .print ["a b", "x"] ∧
      execute {} ((execute {} s "chmod -x run").patch.apply s) "./run" =
        .fail "./run: Permission denied" := by
  intro tree s
  let first := "\t" ++ " ".intercalate ("echo" :: ["\"a", "b\""]) ++ " "
  let second := "" ++ " ".intercalate ("echo" :: ["x'"]) ++ ""
  let lines := ["" ++ "#" ++ "!/bin/sh", first, "\u3000", second]
  have hroot : s.tree.root.isDir = true := by decide +kernel
  have hfile : s.tree.lookup (Path.resolve "run" s.cwd) =
      some (.file "run" { content := "\n".intercalate lines }) := by decide +kernel
  have hcomment : Shell.ScriptLine ("" ++ "#" ++ "!/bin/sh") := .comment Text.blank_empty _
  have hfirst : Shell.ScriptLine first :=
    .echo (by decide +kernel) (by decide +kernel) (by decide) (by decide +kernel)
  have hblank : Shell.ScriptLine "\u3000" := .blank (by decide +kernel)
  have hsecond : Shell.ScriptLine second :=
    .echo (by decide +kernel) (by decide +kernel) (by decide) (by decide +kernel)
  have hfits : ∀ line ∈ lines, Text.FitsLine line := by
    unfold Text.FitsLine
    decide +kernel
  have hplain : ∀ line ∈ lines, Shell.ScriptLine line := by
    simpa only [lines, List.forall_mem_cons] using
      ⟨hcomment, hfirst, hblank, hsecond, List.forall_mem_nil _⟩
  have hon : Text.words "chmod +x run" = ["chmod", "+x", "run"] := by decide +kernel
  have hoff : Text.words "chmod -x run" = ["chmod", "-x", "run"] := by decide +kernel
  have hline : Text.words "./run" = ["./" ++ "run"] := by decide +kernel
  obtain ⟨hrun, hdenied, -, -⟩ := scripts_echo {} hroot hfile rfl
    (fun line hmem => ⟨hfits line hmem, hplain line hmem⟩) hon hoff hline
  exact ⟨(hrun {}).trans (by decide +kernel), hdenied⟩

end PuzzleShell
