import Mathlib.Data.List.Forall2
import PuzzleShell.Proofs.Shell.Loops
import PuzzleShell.Proofs.Shell.Verdicts

/-!
# The gist of an answer

The gist of an answer is what it does and what it says, leaving aside the words of its errors. What
an operand does to a draft is decided, up to the gist, by the place that it names, so in a loop over
operands a word may be exchanged for another that names the same place.
-/

namespace PuzzleShell

/-- What a line says, leaving aside the words of an error. -/
def Line.gist (l : Line) : Line := if l.kind = .error then .error "" else l

def Outcome.gist (o : Outcome) : Outcome := { o with lines := o.lines.map Line.gist }

def Draft.gist (d : Draft) : Draft := { d with lines := d.lines.map Line.gist }

theorem Line.gist_error (text : String) : (error text).gist = error "" := rfl

theorem Line.kind_gist (l : Line) : l.gist.kind = l.kind := by
  unfold gist
  split
  · next h => exact h.symm
  · rfl

namespace Outcome

variable {o o' : Outcome}

theorem hasErrors_gist (o : Outcome) : o.gist.hasErrors = o.hasErrors := by
  simp [hasErrors, gist, List.any_map, Function.comp_def, Line.kind_gist]

theorem gist_of_clean (h : o.hasErrors = false) : o.gist = o := by
  have hlines : o.lines.map Line.gist = o.lines := by
    refine (List.map_congr_left fun l hl => ?_).trans (List.map_id o.lines)
    have hkind := List.any_eq_false.1 h l hl
    exact if_neg (by simpa using hkind)
  rw [gist, hlines]

end Outcome

theorem cases_of_map_eq {ε α β : Type} {g : α → β} {x y : Except ε α} (h : x.map g = y.map g) :
    (∃ e, x = .error e ∧ y = .error e) ∨ ∃ a b, x = .ok a ∧ y = .ok b ∧ g a = g b := by
  cases x with
  | error e =>
    cases y with
    | error e' => exact .inl ⟨e, rfl, congrArg Except.error (Except.error.inj h).symm⟩
    | ok b => cases h
  | ok a =>
    cases y with
    | error e' => cases h
    | ok b => exact .inr ⟨a, b, rfl, rfl, Except.ok.inj h⟩

namespace Draft

variable {d d' : Draft}

theorem tree_eq_of_gist (h : d.gist = d'.gist) : d.tree = d'.tree := by
  have htree := congrArg tree h
  exact htree

theorem gist_report (d : Draft) (l : Line) : (d.report l).gist = d.gist.report l.gist := by
  simp [gist, report]

theorem map_report_alike (h : d.gist = d'.gist) (text text' : String) :
    (Except.ok (d.report (.error text)) : Except Fault Draft).map gist =
      (Except.ok (d'.report (.error text'))).map gist := by
  refine congrArg Except.ok ?_
  rw [gist_report, gist_report, h]
  rfl

theorem map_update_alike (h : d.gist = d'.gist) (x : Except EditError FileTree) :
    ((x.mapError Fault.edit).map d.update).map gist =
      ((x.mapError Fault.edit).map d'.update).map gist := by
  cases x with
  | error e => rfl
  | ok t => exact congrArg (fun d : Draft => Except.ok (d.update t)) h

/-- The words do the same to drafts of the same gist. -/
def Alike (f : Draft → String → Except Fault Draft) (w w' : String) : Prop :=
  ∀ d d' : Draft, d.gist = d'.gist → (f d w).map gist = (f d' w').map gist

theorem gist_foldlM {f : Draft → String → Except Fault Draft} {ws ws' : List String}
    (hf : List.Forall₂ (Alike f) ws ws') (h : d.gist = d'.gist) :
    (ws.foldlM f d).map gist = (ws'.foldlM f d').map gist := by
  induction hf generalizing d d' with
  | nil => exact congrArg Except.ok h
  | @cons w w' ws ws' hw hws ih =>
    have hone := hw d d' h
    rw [List.foldlM_cons, List.foldlM_cons]
    obtain ⟨e, hd, hd'⟩ | ⟨d₁, d₁', hd, hd', hgist⟩ := cases_of_map_eq hone
    · rw [hd, hd']
      rfl
    · rw [hd, hd']
      exact ih hgist

end Draft

namespace Shell

variable {r : Request} {w w' : String}

section Words

variable (h : r.resolve w = r.resolve w')
include h

theorem lookup_alike : r.lookup w = r.lookup w' := congrArg r.tree.lookup h

theorem read_alike : r.read w = r.read w' := by
  unfold Request.read
  rw [lookup_alike h]

theorem mkdirOne_alike : Draft.Alike (mkdirOne r) w w' := by
  intro d d' hd
  unfold mkdirOne
  dsimp only
  rw [h, Draft.tree_eq_of_gist hd]
  split
  · split
    · exact Draft.map_report_alike hd _ _
    · exact Draft.map_update_alike hd _
  · exact Draft.map_report_alike hd _ _

theorem touchOne_alike : Draft.Alike (fun d w => .ok (touchOne r d w)) w w' := by
  intro d d' hd
  unfold touchOne
  dsimp only
  rw [h, Draft.tree_eq_of_gist hd]
  split
  · exact congrArg Except.ok hd
  · split
    · exact Draft.map_update_alike hd (.ok _)
    · exact Draft.map_report_alike hd _ _

theorem chmodOne_alike (executable : Bool) : Draft.Alike (chmodOne r executable) w w' := by
  intro d d' hd
  unfold chmodOne
  dsimp only
  rw [h, Draft.tree_eq_of_gist hd]
  split
  · exact Draft.map_report_alike hd _ _
  · exact congrArg Except.ok hd
  · exact Draft.map_update_alike hd _

theorem rmOne_alike (flags : Flags) (hdots : Removing.EndsInDots w ↔ Removing.EndsInDots w') :
    Draft.Alike (rmOne r flags) w w' := by
  intro d d' hd
  unfold Removing.EndsInDots at hdots
  simp only [Path.lastComponent_eq_name] at hdots
  unfold rmOne
  dsimp only
  rw [h, Draft.tree_eq_of_gist hd]
  simp only [hdots]
  split
  · exact Draft.map_report_alike hd _ _
  · split
    · split
      · exact congrArg Except.ok hd
      · exact Draft.map_report_alike hd _ _
    · split
      · exact Draft.map_report_alike hd _ _
      · split
        · exact Draft.map_report_alike hd _ _
        · exact Draft.map_update_alike hd _

end Words

section Loops

variable {f : Draft → String → Except Fault Draft}

theorem loop_alike (hsame : ∀ w, Draft.Alike f w w) (hnew : Draft.Alike f w w')
    (before after : List String) (t : FileTree) :
    ((before ++ w :: after).foldlM f { tree := t }).map Draft.gist =
      ((before ++ w' :: after).foldlM f { tree := t }).map Draft.gist := by
  have hrefl (ws : List String) : List.Forall₂ (Draft.Alike f) ws ws :=
    List.forall₂_same.2 fun w _ => hsame w
  exact Draft.gist_foldlM (List.rel_append (hrefl before) (.cons hnew (hrefl after))) rfl

theorem map_alike {g : Draft → Outcome} (hg : ∀ d, (g d).gist = g d.gist)
    {x y : Except Fault Draft} (hxy : x.map Draft.gist = y.map Draft.gist) :
    (x.map g).map Outcome.gist = (y.map g).map Outcome.gist := by
  have hgist (x : Except Fault Draft) : (x.map g).map Outcome.gist = (x.map Draft.gist).map g := by
    cases x with
    | error e => rfl
    | ok d => exact congrArg Except.ok (hg d)
  rw [hgist, hgist, hxy]

end Loops

end Shell

end PuzzleShell
