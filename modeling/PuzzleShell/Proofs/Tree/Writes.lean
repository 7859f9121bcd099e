import PuzzleShell.Proofs.Tree.Labels

/-!
# Writes in either order

Whether a write succeeds is decided by the directories alone, and a write makes no directory and
removes none. So two writes at different places report the same in both orders, and since each
changes one label, they end in the same tree.
-/

namespace PuzzleShell.FileTree

variable {t t' : FileTree} {path other : String}

/-- What a write at the path reports, if anything. -/
def refusal (t : FileTree) (path : String) : Option EditError :=
  if Path.name path = "" then some (.isDirectory path)
  else if t.hasDir (Path.parent path) = false then some (.notFound path)
  else if t.hasDir path = true then some (.isDirectory path)
  else none

theorem write_eq (t : FileTree) (path content : String) :
    t.write path content = match t.refusal path with
      | some e => .error e
      | none => t.put path (.file (Path.name path) { t.fileAt path with content }) := by
  rw [write, refusal]
  by_cases hname : Path.name path = ""
  · rw [if_pos hname, if_pos hname]
  · have hs : Path.segments path ≠ [] := fun hs => hname (Path.name_eq_empty_iff.2 hs)
    have hfound := lookup_eq_child? (t := t) hs
    rw [if_neg hname, if_neg hname]
    cases hd : t.lookup (Path.parent path) with
    | none => rw [hasDir, hd]; rfl
    | some d =>
      rw [hd, Option.bind_some] at hfound
      cases d with
      | file => rw [hasDir, hd]; rfl
      | dir m o cs =>
        dsimp only
        rw [hasDir, hd, hasDir, hfound, fileAt, hfound]
        cases hc : (Node.dir m o cs).child? (Path.name path) with
        | none => rfl
        | some n =>
          cases n with
          | dir => rfl
          | file name data =>
            obtain rfl : name = Path.name path := Node.name_of_child? hc
            rfl

theorem refusal_eq_none_iff : t.refusal path = none ↔
    Path.segments path ≠ [] ∧ t.hasDir (Path.parent path) = true ∧ t.hasDir path = false := by
  rw [refusal, Ne, ← Path.name_eq_empty_iff]
  by_cases hname : Path.name path = ""
  · simp [hname]
  · cases hparent : t.hasDir (Path.parent path) with
    | false => simp [hname]
    | true => simp [hname]

theorem exists_write (content : String) (h : t.refusal path = none) :
    ∃ t', t.write path content = .ok t' := by
  obtain ⟨hs, hparent, -⟩ := refusal_eq_none_iff.1 h
  rw [write_eq, h]
  exact (exists_put_iff hs).2 hparent

/-- The tree after a write, and what the write reports. When it is refused the tree stays as it
is. -/
def tryWrite (t : FileTree) (path content : String) : FileTree × Option EditError :=
  match t.write path content with
  | .ok t' => (t', none)
  | .error e => (t, some e)

theorem tryWrite_of_refusal {e : EditError} (content : String) (h : t.refusal path = some e) :
    t.tryWrite path content = (t, some e) := by
  rw [tryWrite, write_eq, h]

theorem tryWrite_of_ok {content : String} (h : t.write path content = .ok t') :
    t.tryWrite path content = (t', none) := by
  rw [tryWrite, h]

theorem snd_tryWrite (t : FileTree) (path content : String) :
    (t.tryWrite path content).2 = t.refusal path := by
  cases hr : t.refusal path with
  | some e => rw [tryWrite_of_refusal content hr]
  | none =>
    obtain ⟨t', h⟩ := exists_write content hr
    rw [tryWrite_of_ok h]

theorem labelAt_tryWrite (t : FileTree) (path content : String) (place : List String) :
    (t.tryWrite path content).1.root.labelAt place =
      if place = Path.segments path ∧ t.refusal path = none then
        some (.file (Path.name path) { t.fileAt path with content })
      else t.root.labelAt place := by
  cases hr : t.refusal path with
  | some e => rw [tryWrite_of_refusal content hr, if_neg (by simp)]
  | none =>
    obtain ⟨t', h⟩ := exists_write content hr
    rw [tryWrite_of_ok h, labelAt_write h]
    simp only [and_true]

theorem hasDir_eq_any_root (t : FileTree) (path : String) :
    t.hasDir path = (t.root.labelAt (Path.segments path)).any (·.isDir) :=
  hasDir_eq_any_labelAt

/-- Where a file is written there was no directory, so no directory comes or goes. -/
theorem hasDir_tryWrite (t : FileTree) (path content other : String) :
    (t.tryWrite path content).1.hasDir other = t.hasDir other := by
  rw [hasDir_eq_any_root, labelAt_tryWrite]
  split
  · next hwritten =>
    obtain ⟨hplace, hr⟩ := hwritten
    obtain ⟨t', h⟩ := exists_write content hr
    have hvacant := (Growth.write content h).vacant
    rw [hasDir_eq_any_root, ← hplace, ← hasDir_eq_any_root] at hvacant
    rw [hvacant]
    rfl
  · exact (hasDir_eq_any_root t other).symm

theorem refusal_tryWrite (t : FileTree) (path content other : String) :
    (t.tryWrite path content).1.refusal other = t.refusal other := by
  unfold refusal
  rw [hasDir_tryWrite, hasDir_tryWrite]

theorem fileAt_congr (h : t'.root.labelAt (Path.segments path) =
    t.root.labelAt (Path.segments other)) : t'.fileAt path = t.fileAt other := by
  rw [Node.labelAt, Node.labelAt] at h
  rw [fileAt, fileAt, lookup, lookup]
  cases hn : t.root.get? (Path.segments other) with
  | none =>
    rw [hn] at h
    rw [Option.map_eq_none_iff.1 h]
  | some n =>
    rw [hn] at h
    obtain ⟨n', hn', hlabel⟩ := Option.map_eq_some_iff.1 h
    rw [hn']
    cases n <;> cases n' <;> cases hlabel <;> rfl

section SamePlace

variable {p q : String} (h : Path.segments p = Path.segments q)
include h

theorem lookup_of_segments_eq (t : FileTree) : t.lookup p = t.lookup q := by
  rw [lookup, lookup, h]

theorem refusal_of_segments_eq (t : FileTree) : t.refusal p = none ↔ t.refusal q = none := by
  have hparent : Path.parent p = Path.parent q := by rw [Path.parent, Path.parent, h]
  have hdir : t.hasDir p = t.hasDir q := by rw [hasDir, hasDir, lookup_of_segments_eq h]
  rw [refusal_eq_none_iff, refusal_eq_none_iff, h, hparent, hdir]

theorem fileAt_tryWrite (t : FileTree) (a b : String) :
    ({ (t.tryWrite p a).1.fileAt q with content := b } : FileData) =
      { t.fileAt q with content := b } := by
  cases hr : t.refusal p with
  | some e => rw [tryWrite_of_refusal a hr]
  | none =>
    obtain ⟨t', hwrite⟩ := exists_write a hr
    have hbefore : t.fileAt p = t.fileAt q := fileAt_congr (by rw [h])
    have hafter : t'.fileAt q = { t.fileAt p with content := a } := by
      rw [fileAt, ← lookup_of_segments_eq h, lookup_write hwrite]
    rw [tryWrite_of_ok hwrite, hafter, hbefore]

end SamePlace

/-- Two writes at different places report the same and leave the same in both orders; of two at
one place the second is all that counts. -/
theorem tryWrite_tryWrite (t : FileTree) (p q a b : String) :
    (Path.segments p ≠ Path.segments q →
      ((t.tryWrite p a).1.tryWrite q b).1 = ((t.tryWrite q b).1.tryWrite p a).1 ∧
      ((t.tryWrite q b).1.tryWrite p a).2 = (t.tryWrite p a).2 ∧
      ((t.tryWrite p a).1.tryWrite q b).2 = (t.tryWrite q b).2) ∧
    (Path.segments p = Path.segments q →
      ((t.tryWrite p a).1.tryWrite q b).1 = (t.tryWrite q b).1) := by
  constructor
  · intro hne
    have hp : (t.tryWrite q b).1.fileAt p = t.fileAt p :=
      fileAt_congr (by rw [labelAt_tryWrite, if_neg fun h => hne h.1])
    have hq : (t.tryWrite p a).1.fileAt q = t.fileAt q :=
      fileAt_congr (by rw [labelAt_tryWrite, if_neg fun h => hne h.1.symm])
    refine ⟨eq_of_labelAt fun place => ?_, ?_, ?_⟩
    · simp only [labelAt_tryWrite, refusal_tryWrite, hp, hq]
      by_cases hplace : place = Path.segments p
      · have hother : ¬ (place = Path.segments q ∧ t.refusal q = none) :=
          fun h => hne (hplace.symm.trans h.1)
        rw [if_neg hother, if_neg hother]
      · have hother : ¬ (place = Path.segments p ∧ t.refusal p = none) := fun h => hplace h.1
        rw [if_neg hother, if_neg hother]
    · rw [snd_tryWrite, snd_tryWrite, refusal_tryWrite]
    · rw [snd_tryWrite, snd_tryWrite, refusal_tryWrite]
  · intro hsame
    refine eq_of_labelAt fun place => ?_
    simp only [labelAt_tryWrite, refusal_tryWrite, fileAt_tryWrite hsame, hsame,
      refusal_of_segments_eq hsame]
    split
    · rfl
    · rfl

/-- The first file stands in the way of the second, which is refused before and after. -/
theorem tryWrite_tryWrite_below :
    ((base.tryWrite "/tmp/x" "a").1.tryWrite "tmp/x//y" "b").1 =
        ((base.tryWrite "tmp/x//y" "b").1.tryWrite "/tmp/x" "a").1 ∧
      (base.tryWrite "tmp/x//y" "b").2 = some (.notFound "tmp/x//y") ∧
      ((base.tryWrite "/tmp/x" "a").1.tryWrite "tmp/x//y" "b").2 =
        some (.notFound "tmp/x//y") ∧
      ((base.tryWrite "/tmp/x" "a").1.tryWrite "/tmp//x" "b").1 =
        (base.tryWrite "/tmp//x" "b").1 := by
  have hne : Path.segments "/tmp/x" ≠ Path.segments "tmp/x//y" := by decide +kernel
  have hsame : Path.segments "/tmp/x" = Path.segments "/tmp//x" := by decide +kernel
  have hrefused : (base.tryWrite "tmp/x//y" "b").2 = some (.notFound "tmp/x//y") := by
    decide +kernel
  obtain ⟨htree, -, hsecond⟩ := (tryWrite_tryWrite base "/tmp/x" "tmp/x//y" "a" "b").1 hne
  exact ⟨htree, hrefused, hsecond.trans hrefused,
    (tryWrite_tryWrite base "/tmp/x" "/tmp//x" "a" "b").2 hsame⟩

end PuzzleShell.FileTree
