import DocumentQuery.Source.Failure
import DocumentQuery.Source.FileTree

/-!
# Walking directories

The regular files below a directory, at any depth or down to a greatest one. Links below
the directory are passed over or followed; a followed link must lead somewhere, and not
to a directory that is being walked. An entry is known from the listing of its directory, so
only a directory or a link under a path that is too long is refused, not a file.
-/

namespace DocumentQuery

structure FoundFile where
  /-- The directory as it was named, with the names below it. -/
  path : FilePath
  /-- The names that lead from the directory to the file. -/
  below : List String
deriving DecidableEq

structure OpenDirectory where
  path : FilePath
  location : Location

inductive Visit where
  /-- It is no file, and no directory that is looked into. -/
  | pass
  | take
  | enter (location : Location) (entries : List (String × FileNode))
  | refuse (failure : Failure)

namespace FileTree

def lookupFailure (path : FilePath) (fault : LookupFault) : Failure :=
  .resolution ("Error traversing directory: IO error for operation on " ++ path.text ++ ": " ++
    fault.text)

def loopFailure (path ancestor : FilePath) : Failure :=
  .resolution ("Error traversing directory: File system loop found: " ++ path.text ++
    " points to an ancestor " ++ ancestor.text)

mutual

def directoriesIn (here : Location) : FileNode → List Location
  | .directory entries => here :: directoriesAmong here entries
  | _ => []

def directoriesAmong (here : Location) : List (String × FileNode) → List Location
  | [] => []
  | (name, node) :: rest => directoriesIn (here ++ [name]) node ++ directoriesAmong here rest

end

def together (found others : Except Failure (List FoundFile)) :
    Except Failure (List FoundFile) := do
  return (← found) ++ (← others)

variable (tree : FileTree) (followLinks : Bool)

/-- What a walk does with an entry of a directory. `chain` holds the directories being walked,
innermost first, and `closed` all the others. -/
def visit (chain : List OpenDirectory) (closed : List Location) (directory : OpenDirectory)
    (name : String) : FileNode → Visit
  | .file _ => .take
  | .directory entries => .enter (directory.location ++ [name]) entries
  | .link _ =>
    let path := directory.path.join name
    if !followLinks then .pass
    else
      match tree.locate .followed path with
      | .error fault => .refuse (lookupFailure path fault)
      | .ok target =>
        match tree.node? target with
        | some (.directory entries) =>
          if target ∈ closed then .enter target entries
          else
            let ancestor := (chain.find? (·.location = target)).getD directory
            .refuse (loopFailure path ancestor.path)
        | some (.file _) => .take
        | _ => .pass

/-- A walk enters what lies in the entry itself, or a directory that was closed. -/
theorem of_visit_eq_enter {chain : List OpenDirectory} {closed : List Location}
    {directory : OpenDirectory} {name : String} {node : FileNode} {location : Location}
    {entries : List (String × FileNode)}
    (h : tree.visit followLinks chain closed directory name node = .enter location entries) :
    node = .directory entries ∨ location ∈ closed := by
  unfold visit at h
  split at h
  · contradiction
  · obtain ⟨-, rfl⟩ := Visit.enter.inj h
    exact Or.inl rfl
  · dsimp only at h
    split at h
    · contradiction
    · split at h
      · contradiction
      · split at h
        · split at h
          · obtain ⟨rfl, -⟩ := Visit.enter.inj h
            exact Or.inr ‹_›
          · contradiction
        · contradiction
        · contradiction

/-- The files among entries of a directory and below them. `depth` tells how many levels
below the entries are still looked at. -/
def walkEntries (chain : List OpenDirectory) (closed : List Location) (depth : Option Nat)
    (directory : OpenDirectory) (below : List String) :
    List (String × FileNode) → Except Failure (List FoundFile)
  | [] => .ok []
  | (name, node) :: rest =>
    let path := directory.path.join name
    let found : Except Failure (List FoundFile) :=
      match _ : tree.visit followLinks chain closed directory name node with
      | .pass => .ok []
      | .take => .ok [⟨path, below ++ [name]⟩]
      | .refuse failure => .error failure
      | .enter location entries =>
        if depth = some 0 then .ok []
        else if maxPathBytes < path.byteSize then .error (lookupFailure path .tooLong)
        else
          let inner : OpenDirectory := ⟨path, location⟩
          walkEntries (inner :: chain) (closed.erase location) (depth.map (· - 1)) inner
            (below ++ [name]) entries
    together found (walkEntries chain closed depth directory below rest)
termination_by entries => (closed.length, sizeOf entries)
decreasing_by
  · by_cases hclosed : location ∈ closed
    · apply Prod.Lex.left
      have := List.length_pos_of_mem hclosed
      simp only [List.length_erase_of_mem hclosed]
      omega
    · have hnode : node = .directory entries :=
        (of_visit_eq_enter tree followLinks (by assumption)).resolve_right hclosed
      simp only [List.erase_of_not_mem hclosed, hnode]
      apply Prod.Lex.right
      simp
      omega
  · apply Prod.Lex.right
    simp only [List.cons.sizeOf_spec, Prod.mk.sizeOf_spec]
    omega

def walk (maxDepth : Option Nat) (path : FilePath) : Except Failure (List FoundFile) :=
  match tree.locate .followed path with
  | .error fault => .error (lookupFailure path fault)
  | .ok location =>
    match tree.node? location with
    | some (.directory entries) =>
      if maxDepth = some 0 then .ok []
      else
        let directory : OpenDirectory := ⟨path, location⟩
        tree.walkEntries followLinks [directory] ((directoriesIn [] tree.root).erase location)
          (maxDepth.map (· - 1)) directory [] entries
    | _ => .ok []

end FileTree
end DocumentQuery
