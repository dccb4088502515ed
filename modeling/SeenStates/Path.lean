/-!
# Paths

A path is text: pieces separated by slashes. Paths are joined and shortened as texts, so that
messages show them as they were given. What a path leads to is for the files to say.
-/
namespace SeenStates

namespace Path

/-- What stands between two slashes. -/
abbrev Piece := List Char

/-- The pieces between slashes. There is always one, though it may be empty. -/
def pieces : List Char → List Piece
  | [] => [[]]
  | c :: rest =>
    if c = '/' then [] :: pieces rest
    else
      match pieces rest with
      | [] => [[c]]
      | piece :: more => (c :: piece) :: more

/-- There is always a piece. -/
theorem pieces_ne_nil (cs : List Char) : pieces cs ≠ [] := by
  cases cs with
  | nil => simp [pieces]
  | cons c rest =>
    unfold pieces
    split
    · simp
    · split <;> simp

/-- Pieces with a slash between each two. -/
def unpieces (ps : List Piece) : List Char := ['/'].intercalate ps

/-- A text is its pieces with a slash between each two. -/
theorem unpieces_pieces (cs : List Char) : unpieces (pieces cs) = cs := by
  induction cs with
  | nil => rfl
  | cons c rest ih =>
    unfold pieces
    split
    · next slash =>
      obtain ⟨piece, more, found⟩ := List.exists_cons_of_ne_nil (pieces_ne_nil rest)
      rw [found] at ih ⊢
      simp [unpieces, List.intercalate] at ih ⊢
      exact ⟨slash.symm, ih⟩
    · obtain ⟨piece, more, found⟩ := List.exists_cons_of_ne_nil (pieces_ne_nil rest)
      rw [found] at ih ⊢
      cases more <;> simp_all [unpieces, List.intercalate]

/-- Text without a slash is a single piece. -/
theorem pieces_eq_singleton {cs : List Char} (plain : '/' ∉ cs) : pieces cs = [cs] := by
  induction cs with
  | nil => rfl
  | cons c rest ih =>
    simp only [List.mem_cons, not_or] at plain
    simp [pieces, ih plain.2, Ne.symm plain.1]

/-- The pieces of two texts with a slash between them are the pieces of both. -/
theorem pieces_append_slash (a b : List Char) : pieces (a ++ '/' :: b) = pieces a ++ pieces b := by
  induction a with
  | nil => simp [pieces]
  | cons c rest ih =>
    by_cases slash : c = '/'
    · simp [pieces, slash, ih]
    · obtain ⟨piece, more, found⟩ := List.exists_cons_of_ne_nil (pieces_ne_nil rest)
      simp [pieces, slash, ih, found]

/-- Whether a path starts at the root of all files. -/
def isAbsolute (path : String) : Bool := path.toList.head? = some '/'

/-- A path below a directory. An absolute path stands for itself, an empty directory adds nothing,
and a separator is put in unless the directory ends in one. -/
def join (directory path : String) : String :=
  if isAbsolute path || directory.isEmpty then path
  else if directory.toList.getLast? = some '/' then directory ++ path
  else directory ++ "/" ++ path

/-- A piece of a path that does not go anywhere. -/
def isIdle (piece : Piece) : Bool := piece = [] || piece = ['.']

/-- A piece of a path that leads back. -/
def isBack (piece : Piece) : Bool := piece = ['.', '.']

/-- The text of a first piece and of those after it, given last to first and shortened by the idle
ones at the end. -/
def shortened (first : Piece) (reversed : List Piece) : String :=
  match reversed.dropWhile isIdle with
  | [] => if first = [] then "/" else String.ofList first
  | kept => String.ofList (unpieces (first :: kept.reverse))

/-- The directories above a path with the given first piece and the given pieces after it, last to
first. The nearest one comes first. -/
def above (first : Piece) : List Piece → List String
  | [] => []
  | piece :: before =>
    if isIdle piece then above first before else shortened first before :: above first before

/-- The directories above a path as far as they have a text of their own, the nearest one first. -/
def ancestors (path : String) : List String :=
  match pieces path.toList with
  | [] => []
  | first :: rest => above first rest.reverse

/-- The directory part of a path: what stands before its last name, without idle pieces at the
end. It is empty for a single name. -/
def parent (path : String) : String :=
  match pieces path.toList with
  | [] => ""
  | first :: rest =>
    match rest.reverse.dropWhile isIdle with
    | [] => ""
    | _ :: before => shortened first before

/-- The directory part of a path, the current directory for a single name. -/
def directory (path : String) : String :=
  let p := parent path
  if p.isEmpty then "." else p

/-- The last piece that is not idle. A dot at the very front counts. -/
def lastPiece (path : String) : Piece :=
  match pieces path.toList with
  | [] => []
  | first :: rest => (rest.reverse.dropWhile isIdle).headD first

/-- The last name of a path; empty when it ends in dots. -/
def fileName (path : String) : String :=
  let last := lastPiece path
  if isIdle last || isBack last then "" else String.ofList last

end Path

end SeenStates
