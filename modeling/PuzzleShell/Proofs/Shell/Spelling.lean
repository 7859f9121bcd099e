import PuzzleShell.Proofs.Shell.Gist
import PuzzleShell.Proofs.Shell.Removals
import PuzzleShell.Proofs.Shell.Writers

/-!
# Two spellings of one place

A place can be named in many ways. A command looks at the place that its operand is resolved to, and
at the word as it was typed only to report it. So where one word is typed for another that is
resolved to the same place, the command does the same and what it says is the same but for the words
of the errors. Only `rm` looks at a word for more than that: it refuses one that ends in dots.
-/

namespace PuzzleShell

def Request.withArgs (r : Request) (args : List String) : Request := { r with args }

namespace Request

variable (r : Request) (args : List String)

@[simp] theorem args_withArgs : (r.withArgs args).args = args := rfl

@[simp] theorem name_withArgs : (r.withArgs args).name = r.name := rfl

@[simp] theorem resolve_withArgs : (r.withArgs args).resolve = r.resolve := rfl

@[simp] theorem lookup_withArgs : (r.withArgs args).lookup = r.lookup := rfl

@[simp] theorem read_withArgs : (r.withArgs args).read = r.read := by
  funext target
  unfold read
  rw [lookup_withArgs]

@[simp] theorem tree_withArgs : (r.withArgs args).tree = r.tree := rfl

end Request

namespace Shell

theorem writeLine_withArgs (r : Request) (args : List String) :
    writeLine (r.withArgs args) = writeLine r := by
  unfold writeLine priorContent
  simp only [Request.lookup_withArgs, Request.read_withArgs, Request.tree_withArgs,
    Request.resolve_withArgs]

theorem archive_withArgs (r : Request) (args : List String) :
    archive (r.withArgs args) = archive r := by
  unfold archive
  simp only [Request.lookup_withArgs, Request.tree_withArgs, Request.resolve_withArgs]

section Commands

variable {r : Request} {w w' : String} (h : r.resolve w = r.resolve w')
  (before after : List String)
include h

theorem cd_alike : (cd (r.withArgs (before ++ w :: after))).gist =
    (cd (r.withArgs (before ++ w' :: after))).gist := by
  unfold cd
  simp only [Request.args_withArgs, Request.lookup_withArgs, Request.resolve_withArgs]
  cases before with
  | cons v before => simp only [List.cons_append, List.headD_cons]
  | nil =>
    simp only [List.nil_append, List.headD_cons, lookup_alike h, h]
    split <;> rfl

theorem mkdir_alike (hw : Text.startsWith "-" w = false) (hw' : Text.startsWith "-" w' = false) :
    (mkdir (r.withArgs (before ++ w :: after))).map Outcome.gist =
      (mkdir (r.withArgs (before ++ w' :: after))).map Outcome.gist := by
  have hsplit {v : String} (hv : Text.startsWith "-" v = false) :
      (before ++ v :: after).filter (!Text.startsWith "-" ·) =
        before.filter (!Text.startsWith "-" ·) ++ v :: after.filter (!Text.startsWith "-" ·) := by
    rw [List.filter_append, List.filter_cons_of_pos (by simp [hv])]
  have hloop := loop_alike (fun _ => mkdirOne_alike rfl) (mkdirOne_alike h)
    (before.filter (!Text.startsWith "-" ·)) (after.filter (!Text.startsWith "-" ·)) r.tree
  have hsame (args : List String) : mkdirOne (r.withArgs args) = mkdirOne r := mkdirOne_congr rfl
  rw [mkdir_eq_map (by simp) (hsplit hw), mkdir_eq_map (by simp) (hsplit hw'), hsame, hsame]
  exact map_alike (fun _ => rfl) hloop

theorem touch_alike : (touch (r.withArgs (before ++ w :: after))).gist =
    (touch (r.withArgs (before ++ w' :: after))).gist := by
  have hloop := loop_alike (fun _ => touchOne_alike rfl) (touchOne_alike h) before after r.tree
  have hsame (args : List String) : touchOne (r.withArgs args) = touchOne r := touchOne_congr rfl
  rw [foldlM_ok, foldlM_ok] at hloop
  have hgist : ((before ++ w :: after).foldl (touchOne r) { tree := r.tree }).gist =
      ((before ++ w' :: after).foldl (touchOne r) { tree := r.tree }).gist := Except.ok.inj hloop
  rw [touch_eq_outcome (by simp) rfl, touch_eq_outcome (by simp) rfl, hsame, hsame]
  exact congrArg Draft.outcome hgist

theorem chmod_alike (hbefore : before ≠ []) :
    (chmod (r.withArgs (before ++ w :: after))).map Outcome.gist =
      (chmod (r.withArgs (before ++ w' :: after))).map Outcome.gist := by
  obtain ⟨mode, before, rfl⟩ := List.exists_cons_of_ne_nil hbefore
  rw [chmod_eq_map (by simp) rfl, chmod_eq_map (by simp) rfl]
  cases executableMode? mode with
  | none => rfl
  | some executable =>
    have hloop := loop_alike (fun _ => chmodOne_alike rfl executable) (chmodOne_alike h executable)
      before after r.tree
    have hsame (args : List String) : chmodOne (r.withArgs args) = chmodOne r := chmodOne_congr rfl
    dsimp only
    rw [hsame, hsame]
    exact map_alike (fun _ => rfl) hloop

theorem rm_alike (hw : Text.startsWith "-" w = false) (hw' : Text.startsWith "-" w' = false)
    (hdots : Removing.EndsInDots w ↔ Removing.EndsInDots w') :
    (rm (r.withArgs (before ++ w :: after))).map Outcome.gist =
      (rm (r.withArgs (before ++ w' :: after))).map Outcome.gist := by
  have hsplit {v : String} (hv : Text.startsWith "-" v = false) :=
    Flags.ofArgs_append_cons hv before after
  let flags : Flags := ⟨(Flags.ofArgs before).given ++ (Flags.ofArgs after).given, []⟩
  have hsame {v : String} (hv : Text.startsWith "-" v = false) :
      rmOne (r.withArgs (before ++ v :: after)) (Flags.ofArgs (before ++ v :: after)) =
        rmOne r flags := by
    funext d x
    have hhas : (Flags.ofArgs (before ++ v :: after)).has = flags.has := by
      rw [hsplit hv]
      rfl
    exact rmOne_congr hhas (congrFun (Request.resolve_withArgs r _) x) d
  have hloop := loop_alike (fun _ => rmOne_alike rfl flags Iff.rfl) (rmOne_alike h flags hdots)
    (Flags.ofArgs before).operands (Flags.ofArgs after).operands r.tree
  rw [rm_eq_map (by simp) (congrArg Flags.operands (hsplit hw)),
    rm_eq_map (by simp) (congrArg Flags.operands (hsplit hw'))]
  simp only [Request.args_withArgs, hsame hw, hsame hw']
  exact map_alike (fun _ => rfl) hloop

theorem writeLine_alike (mode : RedirectMode) (text : String) :
    (writeLine r mode w text).gist = (writeLine r mode w' text).gist := by
  unfold writeLine priorContent
  rw [lookup_alike h, read_alike h, h]
  split
  · rfl
  · split <;> rfl

theorem echo_alike {words : List String} (hwords : ∀ v ∈ words, v ≠ ">" ∧ v ≠ ">>")
    (mode : RedirectMode) :
    (echo (r.withArgs (words ++ mode.symbol :: w :: after))).gist =
      (echo (r.withArgs (words ++ mode.symbol :: w' :: after))).gist := by
  have hsplit (v : String) : Redirect.split (words ++ mode.symbol :: v :: after) =
      (words, some ⟨mode, some v⟩) := by
    rw [Redirect.split_append hwords]
    cases mode <;> simp [Redirect.split, RedirectMode.ofSymbol?, RedirectMode.symbol]
  unfold echo
  simp only [Request.args_withArgs, hsplit, writeLine_withArgs]
  exact writeLine_alike h mode (echoText words)

theorem archive_alike (sources : List String) :
    (archive r w sources).gist = (archive r w' sources).gist := by
  unfold archive
  rw [h]
  split
  · split <;> rfl
  · rfl

theorem archive_source_alike (target : String) :
    (archive r target (before ++ w :: after)).gist =
      (archive r target (before ++ w' :: after)).gist := by
  have hlookup := lookup_alike h
  cases hnone : (r.lookup w').isNone with
  | true =>
    have hmissing : r.lookup w' = none := Option.isNone_iff_eq_none.1 hnone
    rw [archive_of_missing ⟨w, by simp, hlookup.trans hmissing⟩,
      archive_of_missing ⟨w', by simp, hmissing⟩]
    simp [Outcome.gist, missingSource, hlookup, hmissing, Line.gist_error]
  | false =>
    unfold archive
    simp only [List.filter_append, List.filter_cons, hlookup, hnone, Bool.false_eq_true, if_false,
      List.map_append, List.map_cons, h]

theorem ls_alike (hw : Text.startsWith "-" w = false) (hw' : Text.startsWith "-" w' = false) :
    (ls (r.withArgs (before ++ w :: after))).gist =
      (ls (r.withArgs (before ++ w' :: after))).gist := by
  have hsplit {v : String} (hv : Text.startsWith "-" v = false) :=
    Flags.ofArgs_append_cons hv before after
  unfold ls Flags.has
  simp only [Request.args_withArgs, Request.lookup_withArgs, hsplit hw, hsplit hw']
  cases (Flags.ofArgs before).operands with
  | cons v operands => simp only [List.cons_append, List.headD_cons]
  | nil =>
    simp only [List.nil_append, List.headD_cons, lookup_alike h]
    split <;> rfl

theorem cat_alike : (cat (r.withArgs (before ++ w :: after))).gist =
    (cat (r.withArgs (before ++ w' :: after))).gist := by
  have hshown : (shownLines r w).map Line.gist = (shownLines r w').map Line.gist := by
    unfold shownLines
    rw [read_alike h]
    cases r.read w' with
    | ok content => rfl
    | error e => cases e <;> rfl
  have hsame (args : List String) : shownLines (r.withArgs args) = shownLines r :=
    shownLines_congr rfl
  rw [cat_eq_lines (by simp), cat_eq_lines (by simp), hsame, hsame]
  simp [Outcome.gist, hshown]

theorem find_alike (hw : Text.startsWith "-" w = false) (hw' : Text.startsWith "-" w' = false)
    (hbefore : "-name" ∉ before) : (find (r.withArgs (before ++ w :: after))).gist =
      (find (r.withArgs (before ++ w' :: after))).gist := by
  have hplain {v : String} (hv : Text.startsWith "-" v = false) : v ≠ "-name" := by
    rintro rfl
    revert hv
    decide
  have hpattern {v : String} (hv : Text.startsWith "-" v = false) :
      (before ++ v :: after).dropWhile (· != "-name") = after.dropWhile (· != "-name") := by
    rw [List.dropWhile_append_of_pos, List.dropWhile_cons_of_pos (by simpa using hplain hv)]
    intro x hx
    simpa using fun he : x = "-name" => hbefore (he ▸ hx)
  have hhead {v : String} (hv : Text.startsWith "-" v = false) :
      (before ++ v :: after).head? ≠ some "-name" := by
    cases before with
    | nil => simpa using hplain hv
    | cons u before => simpa using Ne.symm (List.ne_of_not_mem_cons hbefore)
  unfold find
  simp only [Request.args_withArgs, Request.lookup_withArgs, Request.resolve_withArgs, hpattern hw,
    hpattern hw', hhead hw, hhead hw', if_false]
  split
  · cases before with
    | cons u before => simp only [List.cons_append, List.headD_cons]
    | nil =>
      simp only [List.nil_append, List.headD_cons, lookup_alike h, h]
      split <;> rfl
  · rfl

theorem start_alike : (Editor.start (r.withArgs (before ++ w :: after))).patch =
      (Editor.start (r.withArgs (before ++ w' :: after))).patch ∧
    (Editor.start (r.withArgs (before ++ w :: after))).hasErrors =
      (Editor.start (r.withArgs (before ++ w' :: after))).hasErrors := by
  unfold Editor.start
  simp only [Request.args_withArgs, Request.name_withArgs, Request.read_withArgs,
    Request.resolve_withArgs]
  cases before with
  | cons v before => simp only [List.cons_append, and_self]
  | nil =>
    simp only [List.nil_append, read_alike h, h]
    split <;> exact ⟨rfl, rfl⟩

theorem tar_alike (hbefore : before ≠ []) : (tar (r.withArgs (before ++ w :: after))).gist =
    (tar (r.withArgs (before ++ w' :: after))).gist := by
  obtain ⟨options, before, rfl⟩ := List.exists_cons_of_ne_nil hbefore
  cases before with
  | nil =>
    -- The word names the archive, and there may be no source behind it.
    by_cases hafter : after = []
    · subst hafter
      rfl
    · rw [tar_eq_ite rfl hafter, tar_eq_ite rfl hafter, archive_withArgs, archive_withArgs]
      split
      · exact archive_alike h after
      · rfl
  | cons target before =>
    have hargs (v : String) : (r.withArgs (options :: target :: before ++ v :: after)).args =
        options :: target :: (before ++ v :: after) := rfl
    rw [tar_eq_ite (hargs w) (by simp), tar_eq_ite (hargs w') (by simp), archive_withArgs,
      archive_withArgs]
    split
    · exact archive_source_alike h before after target
    · rfl

end Commands

end Shell

/-- After these arguments a word is an operand that names a place. -/
def Command.TakesPlace (before : List String) : Command → Prop
  | .cd | .mkdir | .touch | .rm | .nano | .ls | .cat => True
  | .chmod | .tar => before ≠ []
  | .find => "-name" ∉ before
  | .echo => ∃ words mode, (∀ v ∈ words, v ≠ ">" ∧ v ≠ ">>") ∧
    before = words ++ [RedirectMode.symbol mode]
  | _ => False

/-- Two words without a dash in front that name one place; for `rm` neither may end in dots. -/
structure Spellings (c : Command) (cwd w w' : String) : Prop where
  plain : Text.startsWith "-" w = false ∧ Text.startsWith "-" w' = false
  place : Path.resolve w cwd = Path.resolve w' cwd
  dots : c = .rm → ¬ Removing.EndsInDots w ∧ ¬ Removing.EndsInDots w'

namespace Shell

variable {r : Request} {c : Command} {before after : List String} {w w' : String}

theorem run_alike (hc : c ≠ .nano) (htakes : c.TakesPlace before) (h : Spellings c r.cwd w w') :
    (run (r.withArgs (before ++ w :: after)) c).map Outcome.gist =
      (run (r.withArgs (before ++ w' :: after)) c).map Outcome.gist := by
  obtain ⟨⟨hw, hw'⟩, hplace, hdots⟩ := h
  cases c with
  | cd => exact congrArg Except.ok (cd_alike hplace before after)
  | mkdir => exact mkdir_alike hplace before after hw hw'
  | touch => exact congrArg Except.ok (touch_alike hplace before after)
  | chmod => exact chmod_alike hplace before after htakes
  | tar => exact congrArg Except.ok (tar_alike hplace before after htakes)
  | ls => exact congrArg Except.ok (ls_alike hplace before after hw hw')
  | cat => exact congrArg Except.ok (cat_alike hplace before after)
  | find => exact congrArg Except.ok (find_alike hplace before after hw hw' htakes)
  | rm =>
    obtain ⟨hclean, hclean'⟩ := hdots rfl
    exact rm_alike hplace before after hw hw' (iff_of_false hclean hclean')
  | echo =>
    obtain ⟨words, mode, hwords, rfl⟩ := htakes
    simp only [List.append_assoc, List.singleton_append]
    exact congrArg Except.ok (echo_alike hplace after hwords mode)
  | nano => exact absurd rfl hc
  | _ => exact htakes.elim

theorem answer_alike {r r' : Request} (hname : Command.ofName? r.name = some c)
    (hsame : r.name = r'.name)
    (hrun : (run r c).map Outcome.gist = (run r' c).map Outcome.gist) :
    (answer r).gist = (answer r').gist := by
  unfold answer
  rw [← hsame, hname]
  dsimp only
  obtain ⟨e, hr, hr'⟩ | ⟨o, o', hr, hr', hgist⟩ := cases_of_map_eq hrun
  · rw [hr, hr']
  · rw [hr, hr']
    exact hgist

end Shell

/-- Where a word is typed for another that names the same place, a line does the same, and it
reports an error where the other does. Without errors it also says the same, but for the editor, who
tells what is opened. -/
theorem execute_spellings (context : Context) (s : State) {c : Command}
    {name w w' line line' : String} {before after : List String}
    (hname : Command.ofName? name = some c) (htakes : c.TakesPlace before)
    (h : Spellings c s.cwd w w')
    (hline : Text.words line = name :: (before ++ w :: after))
    (hline' : Text.words line' = name :: (before ++ w' :: after)) :
    (execute context s line).patch = (execute context s line').patch ∧
    (execute context s line).hasErrors = (execute context s line').hasErrors ∧
    (c ≠ .nano → (execute context s line).hasErrors = false →
      (execute context s line).lines = (execute context s line').lines) := by
  let r : Request := { name, args := [], state := s, context }
  have hanswer : execute context s line = Shell.answer (r.withArgs (before ++ w :: after)) :=
    execute_of_words hline
  have hanswer' : execute context s line' = Shell.answer (r.withArgs (before ++ w' :: after)) :=
    execute_of_words hline'
  by_cases hc : c = .nano
  · subst hc
    obtain ⟨hpatch, herrors⟩ := Shell.start_alike (r := r) h.place before after
    rw [execute_of_run hline hname rfl, execute_of_run hline' hname rfl]
    exact ⟨hpatch, herrors, fun hc => absurd rfl hc⟩
  · have hgist : (execute context s line).gist = (execute context s line').gist := by
      rw [hanswer, hanswer']
      exact Shell.answer_alike hname rfl (Shell.run_alike hc htakes h)
    have herrors : (execute context s line).hasErrors = (execute context s line').hasErrors := by
      rw [← Outcome.hasErrors_gist, hgist, Outcome.hasErrors_gist]
    have hpatch := congrArg Outcome.patch hgist
    refine ⟨hpatch, herrors, fun _ hclean => ?_⟩
    rw [← Outcome.gist_of_clean hclean, hgist, Outcome.gist_of_clean (herrors ▸ hclean)]

/-- A removal and a search, typed in two ways. -/
theorem execute_spellings_home :
    (execute {} {} "rm -r ~/../user// /tmp").patch = (execute {} {} "rm -r /home/user /tmp").patch ∧
      (execute {} {} "find ../.. -name user").lines =
        (execute {} {} "find /home/./.. -name user").lines := by
  have hflag : Command.rm.TakesPlace ["-r"] := trivial
  have hfirst : Command.find.TakesPlace [] := List.not_mem_nil
  have hremoved : Spellings .rm "/home/user" "~/../user//" "/home/user" := by
    refine ⟨by decide +kernel, by decide +kernel, fun _ => ?_⟩
    unfold Removing.EndsInDots
    decide +kernel
  have hsought : Spellings .find "/home/user" "../.." "/home/./.." :=
    ⟨by decide +kernel, by decide +kernel, fun h => absurd h (by decide)⟩
  have hrm : Text.words "rm -r ~/../user// /tmp" =
      "rm" :: (["-r"] ++ "~/../user//" :: ["/tmp"]) := by decide +kernel
  have hrm' : Text.words "rm -r /home/user /tmp" =
      "rm" :: (["-r"] ++ "/home/user" :: ["/tmp"]) := by decide +kernel
  have hfind : Text.words "find ../.. -name user" =
      "find" :: ([] ++ "../.." :: ["-name", "user"]) := by decide +kernel
  have hfind' : Text.words "find /home/./.. -name user" =
      "find" :: ([] ++ "/home/./.." :: ["-name", "user"]) := by decide +kernel
  obtain ⟨hpatch, -, -⟩ := execute_spellings {} {} rfl hflag hremoved hrm hrm'
  obtain ⟨-, -, hlines⟩ := execute_spellings {} {} rfl hfirst hsought hfind hfind'
  exact ⟨hpatch, hlines (by decide) (by decide +kernel)⟩

end PuzzleShell
