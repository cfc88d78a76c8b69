/-
  Atcd/Identity.lean --- the key of a plane.

  WHAT THIS FILE IS FOR.  The store takes its key from the memory that starts at
  `id`, up to the first NUL.  `id` is six bytes and not terminated, so what ends
  the key is the first padding byte: `storedKey_bytes_iff` says that a plane is
  filed under its id exactly if that byte is zero.
-/
import AirTraffic.Atcd.Motion
import AirTraffic.Storage.OrderedMap

set_option autoImplicit false

namespace AirTraffic.Atcd

open AirTraffic.Foundation AirTraffic.Storage

/-- The key a plane should have: its id, padded with NULs. -/
def AtcPlane.key (plane : AtcPlane) : Bytes := nulPad stoKeySize plane.id.toList

/-- A plane that the store files under its id. -/
structure AtcPlane.Named (plane : AtcPlane) : Prop where
  free : NulFree plane.id.toList
  pad : plane.pad.head = 0

instance (plane : AtcPlane) : Decidable plane.Named :=
  decidable_of_iff (NulFree plane.id.toList ∧ plane.pad.head = 0)
    ⟨fun h => ⟨h.1, h.2⟩, fun h => ⟨h.free, h.pad⟩⟩

theorem length_id (plane : AtcPlane) : plane.id.toList.length = 6 :=
  plane.id.toList_length

/-- The memory of a plane: its id, the first padding byte, and the rest. -/
theorem bytes_eq_id_append (plane : AtcPlane) :
    ∃ rest, plane.bytes = plane.id.toList ++ plane.pad.head :: rest := by
  have hpad : plane.pad.toList = plane.pad.head :: plane.pad.tail.toList := by
    rw [← List.Vector.toList_cons, List.Vector.cons_head_tail]
  rw [AtcPlane.bytes, hpad]
  simp only [List.append_assoc, List.cons_append]
  exact ⟨_, rfl⟩

theorem strnlen_bytes {plane : AtcPlane} (hfree : NulFree plane.id.toList) :
    strnlen plane.bytes stoKeySize = 6 ↔ plane.pad.head = 0 := by
  obtain ⟨rest, hbytes⟩ := bytes_eq_id_append plane
  have hlen : strnlen plane.bytes stoKeySize =
      6 + strnlen (plane.pad.head :: rest) 10 := by
    have happ := strnlen_append hfree (plane.pad.head :: rest) 10
    rwa [← hbytes, length_id] at happ
  rw [hlen, strnlen]
  by_cases h : plane.pad.head = 0
  · simp [h]
  · simp only [h, if_false, iff_false]
    omega

/-- **The key is the id exactly if the first padding byte is zero.** -/
theorem storedKey_bytes_iff {plane : AtcPlane} (hfree : NulFree plane.id.toList) :
    storedKey plane.bytes = plane.key ↔ plane.pad.head = 0 := by
  rw [← strnlen_bytes hfree]
  have hle := strnlen_le plane.bytes stoKeySize
  have hlength := strnlen_le_length plane.bytes stoKeySize
  have hid := length_id plane
  constructor
  · intro h
    have htake := nulPad_injective (nulFree_take_strnlen plane.bytes stoKeySize) hfree
      (by rw [List.length_take]; omega) (by rw [hid]; decide) h
    have := congrArg List.length htake
    rw [List.length_take, hid] at this
    omega
  · intro h
    obtain ⟨rest, hbytes⟩ := bytes_eq_id_append plane
    have htake : plane.bytes.take 6 = plane.id.toList := by
      rw [hbytes, List.take_left' hid]
    rw [storedKey, h, htake]
    rfl

variable {plane : AtcPlane}

theorem AtcPlane.Named.storedKey_eq (named : plane.Named) :
    storedKey plane.bytes = plane.key :=
  (storedKey_bytes_iff named.free).mpr named.pad

theorem AtcPlane.Named.strnlen_eq (named : plane.Named) :
    strnlen plane.bytes stoKeySize = 6 :=
  (strnlen_bytes named.free).mpr named.pad

theorem isKey_key (hfree : NulFree plane.id.toList) : IsKey 6 plane.key :=
  ⟨plane.id.toList, length_id plane, hfree, rfl⟩

/-- Planes without NUL in their ids have one key only if they have one id. -/
theorem id_eq_of_key_eq {other : AtcPlane} (hplane : NulFree plane.id.toList)
    (hother : NulFree other.id.toList) (h : plane.key = other.key) :
    plane.id = other.id := by
  apply List.Vector.eq
  exact nulPad_injective hplane hother (by rw [length_id]; decide)
    (by rw [length_id]; decide) h

/-- Being filed under its id depends on the id and the padding alone. -/
theorem AtcPlane.Named.congr {other : AtcPlane} (named : plane.Named)
    (hid : other.id = plane.id) (hpad : other.pad = plane.pad) : other.Named :=
  ⟨hid ▸ named.free, hpad ▸ named.pad⟩

end AirTraffic.Atcd
