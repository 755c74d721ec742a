import Knitting.Number.Layout
import Knitting.Yarn.Path

set_option autoImplicit false

/-! # The yarn of every carrier and its coordinates

The store keeps, by lane, the path of each carrier. Its coordinates are one stream of records, path
after path (`YarnStore.records`). -/

namespace Knitting

/-- The yarn of every carrier. -/
structure YarnStore (α : Type) where
  paths : Table Nat (YarnPath α)

/-- One step of the stream of coordinates. -/
inductive Record (α : Type) where
  /-- The yarn of a lane begins. -/
  | material (lane : Nat)
  /-- The yarn goes on to a point, which may lie in the corridor. -/
  | point (position : Point α) (corridor : Bool)
  deriving DecidableEq, Repr

namespace YarnStore

variable {α : Type}

def empty : YarnStore α := ⟨.empty⟩

instance : Inhabited (YarnStore α) := ⟨empty⟩

def path? (s : YarnStore α) (lane : Nat) : Option (YarnPath α) := s.paths.get? lane

/-- The path of a lane, without rows where none was started. -/
def path (s : YarnStore α) (lane : Nat) : YarnPath α := (s.path? lane).getD .empty

def row? (s : YarnStore α) (lane row : Nat) : Option (Row α) := do (← s.path? lane).rows[row]?

/-- Changes the path of a lane, which is started if there is none. -/
def modifyPath (s : YarnStore α) (lane : Nat) (f : YarnPath α → YarnPath α) : YarnStore α :=
  ⟨s.paths.alter lane .empty f⟩

/-- Changes a row of a lane, if there is such a row. -/
def modifyRow (s : YarnStore α) (lane row : Nat) (f : Row α → Row α) : YarnStore α :=
  match s.row? lane row with
  | none => s
  | some _ => s.modifyPath lane fun p => p.modifyRow row f

theorem path?_modifyPath (s : YarnStore α) (lane lane' : Nat) (f : YarnPath α → YarnPath α) :
    (s.modifyPath lane f).path? lane' =
      if lane' = lane then some (f (s.path lane)) else s.path? lane' :=
  Table.get?_alter ..

theorem path_modifyPath (s : YarnStore α) (lane lane' : Nat) (f : YarnPath α → YarnPath α) :
    (s.modifyPath lane f).path lane' = if lane' = lane then f (s.path lane) else s.path lane' := by
  rw [path, path?_modifyPath]
  split <;> rfl

theorem row?_eq_getElem? (s : YarnStore α) (lane row : Nat) :
    s.row? lane row = (s.path lane).rows[row]? := by
  unfold row? path
  cases s.path? lane <;> simp [YarnPath.empty]

theorem path?_modifyRow (s : YarnStore α) (lane row c : Nat) (f : Row α → Row α) :
    (s.modifyRow lane row f).path? c =
      if c = lane ∧ s.row? lane row ≠ none then some ((s.path lane).modifyRow row f)
      else s.path? c := by
  unfold modifyRow
  split
  · next h => simp [h]
  · next h => simp [h, path?_modifyPath]

/-- The store with a row of a lane, opened in a direction if it is not there yet. -/
def openRow (s : YarnStore α) (lane row : Nat) (direction : Direction) : YarnStore α :=
  s.modifyPath lane fun p => p.openRow row direction

def loopCount (s : YarnStore α) : Nat :=
  (s.paths.values.flatMap YarnPath.rows).foldr (fun r count => r.loopCount + count) 0

end YarnStore

/-! ## The stream of coordinates -/

section Records

variable {α : Type}

/-- The points of a loop; those toward its end lie in the corridor. -/
def Loop.records (l : Loop α) : List (Record α) :=
  l.points.zipIdx.map fun (position, i) => .point position (corridorStart ≤ i)

/-- The yarn of a lane: nothing if it has no loop. -/
def YarnPath.records (lane : Nat) (p : YarnPath α) : List (Record α) :=
  if p.loops.isEmpty then [] else .material lane :: p.loops.flatMap Loop.records

/-- The yarn of every lane in ascending order. -/
def YarnStore.records (s : YarnStore α) : List (Record α) :=
  s.paths.entries.flatMap fun (lane, p) => p.records lane

end Records

def Record.text : Record Float32 → String
  | material lane => "usemtl mtl" ++ toString lane
  | point p corridor =>
    (if corridor then "c " else "") ++ Number.float32Text p.x ++ " " ++ Number.float32Text p.y
      ++ " " ++ Number.float32Text p.z

def recordLines (records : List (Record Float32)) : String :=
  String.join (records.map fun r => r.text ++ "\n")

/-- What arrives of a stream of records where there is room for `limit` characters only, and
whether that is less than everything. The lines are ASCII, so a character is a byte. -/
def writeLimited (limit : Nat) (records : List (Record Float32)) : String × Except Error Unit :=
  let text := recordLines records
  if text.length ≤ limit then (text, .ok ())
  else (String.ofList (text.toList.take limit), .error .shortWrite)

end Knitting
