import PuzzleShell.Tree.Edit

/-!
# The base tree

The directories that every session without a tree of its own starts from.
-/

namespace PuzzleShell

def FileTree.base : FileTree where
  root := .dir "/" defaultOwner [
    .dir "bin" defaultOwner [],
    .dir "etc" defaultOwner [],
    .dir "home" defaultOwner [.dir "user" defaultOwner []],
    .dir "tmp" defaultOwner [],
    .dir "usr" defaultOwner [.dir "bin" defaultOwner []],
    .dir "var" defaultOwner [.dir "log" defaultOwner []]]
  ordered := by
    have leaf (n : String) : (Node.dir n defaultOwner []).Ordered := .dir _ _ .nil (by simp)
    have twig (n m : String) : (Node.dir n defaultOwner [.dir m defaultOwner []]).Ordered :=
      .dir _ _ (by simp) (by simp [leaf])
    refine .dir _ _ (by decide) ?_
    simp [leaf, twig]

end PuzzleShell
