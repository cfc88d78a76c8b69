/-
  Foundation/Table.lean --- tables in order of first insertion.

  WHAT THIS FILE IS FOR.  A table is a list of rows.  Storing a row replaces the
  first row that answers to it and otherwise appends, so rows keep the order in
  which they first came.  `upsert` is that operation for any test and any
  replacement; `put` is the case where rows answer to a key.  The file proves
  what a store keeps: the other rows, their order, the list of keys, and, when
  no two rows share a key, that `put` is an update at one key.
-/
import Mathlib.Data.List.Nodup
import Mathlib.Data.List.Induction

set_option autoImplicit false

namespace AirTraffic.Foundation

variable {α β κ : Type}

/-- Replace the first row that passes the test, else append. -/
def upsert (test : α → Bool) (replace : α → α) (fresh : α) : List α → List α
  | [] => [fresh]
  | row :: rest =>
      if test row then replace row :: rest
      else row :: upsert test replace fresh rest

section Upsert

variable {test : α → Bool} {replace : α → α} {fresh : α}

/-- No row passes: the fresh row goes to the end. -/
theorem upsert_of_forall_not {rows : List α} (h : ∀ row ∈ rows, test row = false) :
    upsert test replace fresh rows = rows ++ [fresh] := by
  induction rows with
  | nil => rfl
  | cons row rest ih =>
      have hrow : test row = false := h row List.mem_cons_self
      have hrest := ih fun other hmem => h other (List.mem_cons_of_mem row hmem)
      rw [upsert, hrow, hrest]
      rfl

/-- The first row that passes is the one replaced. -/
theorem upsert_append_cons {before after : List α} {row : α}
    (hbefore : ∀ other ∈ before, test other = false) (hrow : test row = true) :
    upsert test replace fresh (before ++ row :: after) =
      before ++ replace row :: after := by
  induction before with
  | nil => simp [upsert, hrow]
  | cons other rest ih =>
      have hother : test other = false := hbefore other List.mem_cons_self
      have hrest := ih fun x hx => hbefore x (List.mem_cons_of_mem other hx)
      rw [List.cons_append, upsert, hother, hrest]
      rfl

theorem findIdx_append_cons {before after : List α} {row : α}
    (hbefore : ∀ other ∈ before, test other = false) (hrow : test row = true) :
    (before ++ row :: after).findIdx test = before.length := by
  induction before with
  | nil => rw [List.nil_append, List.findIdx_cons, hrow]; rfl
  | cons other rest ih =>
      have hrest := ih fun x hx => hbefore x (List.mem_cons_of_mem other hx)
      rw [List.cons_append, List.findIdx_cons, hbefore other List.mem_cons_self, hrest]
      rfl

/-- A table either has no row that passes, or a first one. -/
theorem forall_not_or_first (test : α → Bool) (rows : List α) :
    (∀ row ∈ rows, test row = false) ∨
      ∃ before row after, rows = before ++ row :: after ∧
        (∀ other ∈ before, test other = false) ∧ test row = true := by
  induction rows with
  | nil => exact Or.inl (by simp)
  | cons head rest ih =>
      cases hhead : test head with
      | true => exact Or.inr ⟨[], head, rest, rfl, by simp, hhead⟩
      | false =>
          rcases ih with hnone | ⟨before, row, after, hrest, hbefore, hrow⟩
          · left
            intro row hmem
            rcases List.mem_cons.mp hmem with rfl | hmem
            · exact hhead
            · exact hnone row hmem
          · right
            refine ⟨head :: before, row, after, by rw [hrest]; rfl, ?_, hrow⟩
            intro other hmem
            rcases List.mem_cons.mp hmem with rfl | hmem
            · exact hhead
            · exact hbefore other hmem

/-- Tests and replacements that agree on the rows give the same table. -/
theorem upsert_congr {test' : α → Bool} {replace' : α → α} {rows : List α}
    (htest : ∀ row ∈ rows, test row = test' row)
    (hreplace : ∀ row ∈ rows, test row = true → replace row = replace' row) :
    upsert test replace fresh rows = upsert test' replace' fresh rows := by
  induction rows with
  | nil => rfl
  | cons row rest ih =>
      have hrow := htest row List.mem_cons_self
      have hrest := ih (fun x hx => htest x (List.mem_cons_of_mem row hx))
        (fun x hx => hreplace x (List.mem_cons_of_mem row hx))
      rw [upsert, upsert, ← hrow]
      cases hcase : test row with
      | true => simp [hreplace row List.mem_cons_self hcase]
      | false => simp [hrest]

/-- A view of the rows under which the test and the replacement make sense
carries the operation over. -/
theorem map_upsert {view : α → β} {test' : β → Bool} {replace' : β → β}
    {rows : List α} (htest : ∀ row ∈ rows, test row = test' (view row))
    (hreplace : ∀ row ∈ rows, view (replace row) = replace' (view row)) :
    (upsert test replace fresh rows).map view =
      upsert test' replace' (view fresh) (rows.map view) := by
  induction rows with
  | nil => rfl
  | cons row rest ih =>
      have hrow := htest row List.mem_cons_self
      have hnew := hreplace row List.mem_cons_self
      have hrest := ih (fun x hx => htest x (List.mem_cons_of_mem row hx))
        (fun x hx => hreplace x (List.mem_cons_of_mem row hx))
      rw [upsert, List.map_cons, upsert, ← hrow]
      cases test row with
      | true => simp [hnew]
      | false => simp [hrest]

end Upsert

/-! ## Rows with keys -/

variable [DecidableEq κ] (key : α → κ)

/-- Store a row under its key. -/
def put (fresh : α) (rows : List α) : List α :=
  upsert (fun row => decide (key row = key fresh)) (fun _ => fresh) fresh rows

variable {key}

@[simp] theorem put_nil (fresh : α) : put key fresh [] = [fresh] := rfl

theorem put_cons_of_eq {fresh row : α} (rest : List α) (h : key row = key fresh) :
    put key fresh (row :: rest) = fresh :: rest := by
  simp [put, upsert, h]

theorem put_cons_of_ne {fresh row : α} (rest : List α) (h : key row ≠ key fresh) :
    put key fresh (row :: rest) = row :: put key fresh rest := by
  simp [put, upsert, h]

/-- A new key is appended. -/
theorem put_of_not_mem {fresh : α} {rows : List α} (h : key fresh ∉ rows.map key) :
    put key fresh rows = rows ++ [fresh] := by
  apply upsert_of_forall_not
  intro row hmem
  apply decide_eq_false
  intro heq
  exact h (heq ▸ List.mem_map_of_mem hmem)

/-- Storing under a key that is there keeps the keys, in order. -/
theorem map_key_put_of_mem {fresh : α} {rows : List α} (h : key fresh ∈ rows.map key) :
    (put key fresh rows).map key = rows.map key := by
  induction rows with
  | nil => simp at h
  | cons row rest ih =>
      by_cases heq : key row = key fresh
      · rw [put_cons_of_eq rest heq, List.map_cons, List.map_cons, heq]
      · have hmem : key fresh ∈ rest.map key := by
          rcases List.mem_cons.mp h with hhead | htail
          · exact absurd hhead.symm heq
          · exact htail
        rw [put_cons_of_ne rest heq, List.map_cons, List.map_cons, ih hmem]

theorem map_key_put (fresh : α) (rows : List α) :
    (put key fresh rows).map key =
      if key fresh ∈ rows.map key then rows.map key
      else rows.map key ++ [key fresh] := by
  split
  · exact map_key_put_of_mem ‹_›
  · rw [put_of_not_mem ‹_›, List.map_append]
    rfl

/-- Distinct keys stay distinct. -/
theorem nodup_map_key_put {fresh : α} {rows : List α} (h : (rows.map key).Nodup) :
    ((put key fresh rows).map key).Nodup := by
  rw [map_key_put]
  split
  · exact h
  · rename_i hnot
    refine List.nodup_append.mpr ⟨h, List.nodup_singleton _, ?_⟩
    intro k hk k' hk' heq
    rw [List.mem_singleton.mp hk'] at heq
    exact hnot (heq ▸ hk)

/-- With distinct keys, `put` is an update at one key. -/
theorem mem_put {fresh : α} {rows : List α} (h : (rows.map key).Nodup) {row : α} :
    row ∈ put key fresh rows ↔ row = fresh ∨ (row ∈ rows ∧ key row ≠ key fresh) := by
  induction rows with
  | nil => simp
  | cons head rest ih =>
      have hnodup := List.nodup_cons.mp (by simpa using h : (key head :: rest.map key).Nodup)
      by_cases heq : key head = key fresh
      · have hother : ∀ other ∈ rest, key other ≠ key fresh := by
          intro other hmem hkey
          exact hnodup.1 (heq ▸ hkey ▸ List.mem_map_of_mem hmem)
        rw [put_cons_of_eq rest heq, List.mem_cons, List.mem_cons]
        constructor
        · rintro (rfl | hmem)
          · exact Or.inl rfl
          · exact Or.inr ⟨Or.inr hmem, hother row hmem⟩
        · rintro (rfl | ⟨rfl | hmem, hne⟩)
          · exact Or.inl rfl
          · exact absurd heq hne
          · exact Or.inr hmem
      · rw [put_cons_of_ne rest heq, List.mem_cons, List.mem_cons, ih hnodup.2]
        constructor
        · rintro (rfl | rfl | ⟨hmem, hne⟩)
          · exact Or.inr ⟨Or.inl rfl, heq⟩
          · exact Or.inl rfl
          · exact Or.inr ⟨Or.inr hmem, hne⟩
        · rintro (rfl | ⟨rfl | hmem, hne⟩)
          · exact Or.inr (Or.inl rfl)
          · exact Or.inl rfl
          · exact Or.inr (Or.inr ⟨hmem, hne⟩)

/-- Rows of other keys stay where they are. -/
theorem getElem?_put_of_ne {fresh row : α} {rows : List α} {i : Nat} (hrow : rows[i]? = some row)
    (hkey : key row ≠ key fresh) : (put key fresh rows)[i]? = some row := by
  induction rows generalizing i with
  | nil => exact absurd hrow (by simp)
  | cons head rest ih =>
      by_cases heq : key head = key fresh
      · rw [put_cons_of_eq rest heq]
        cases i with
        | zero =>
            obtain rfl := Option.some.inj hrow
            exact absurd heq hkey
        | succ i => exact hrow
      · rw [put_cons_of_ne rest heq]
        cases i with
        | zero => exact hrow
        | succ i => exact ih hrow

/-- With distinct keys, what is stored is the only row of its key. -/
theorem filter_put {fresh : α} {rows : List α} (h : (rows.map key).Nodup) :
    ((put key fresh rows).filter fun row => key row = key fresh) = [fresh] := by
  induction rows with
  | nil => simp
  | cons head rest ih =>
      obtain ⟨hnot, hrest⟩ := List.nodup_cons.mp h
      by_cases heq : key head = key fresh
      · have hother : (rest.filter fun row => key row = key fresh) = [] := by
          rw [List.filter_eq_nil_iff]
          intro row hmem hrow
          rw [decide_eq_true_eq] at hrow
          exact hnot (heq ▸ hrow ▸ List.mem_map_of_mem hmem)
        rw [put_cons_of_eq rest heq, List.filter_cons_of_pos (by simp), hother]
      · rw [put_cons_of_ne rest heq, List.filter_cons_of_neg (by simpa using heq), ih hrest]

/-- The row stored under a key that one row has takes the place of that row. -/
theorem put_append_cons {before after : List α} {row fresh : α}
    (h : ((before ++ row :: after).map key).Nodup) (hkey : key row = key fresh) :
    put key fresh (before ++ row :: after) = before ++ fresh :: after := by
  apply upsert_append_cons
  · intro other hmem
    apply decide_eq_false
    intro hother
    rw [List.map_append, List.map_cons, List.nodup_append] at h
    exact h.2.2 (key other) (List.mem_map_of_mem hmem) (key row) List.mem_cons_self
      (hother.trans hkey.symm)
  · exact decide_eq_true hkey

/-! ## Histories -/

/-- Storing under one of the keys replaces the row found there. -/
theorem put_filterMap {fresh : α} {keys : List κ} {find : κ → Option α}
    (hfind : ∀ k ∈ keys, ∃ row, find k = some row ∧ key row = k)
    (hnodup : keys.Nodup) (hmem : key fresh ∈ keys) :
    put key fresh (keys.filterMap find) =
      keys.filterMap fun k => if k = key fresh then some fresh else find k := by
  induction keys with
  | nil => simp at hmem
  | cons k rest ih =>
      obtain ⟨row, hrow, hkey⟩ := hfind k List.mem_cons_self
      have hrest := fun k' hk' => hfind k' (List.mem_cons_of_mem k hk')
      have hnot := (List.nodup_cons.mp hnodup).1
      rw [List.filterMap_cons_some hrow]
      by_cases heq : k = key fresh
      · have hsame : (rest.filterMap fun k' => if k' = key fresh then some fresh else find k') =
            rest.filterMap find := by
          apply List.filterMap_congr
          intro k' hk'
          have hne : k' ≠ key fresh := fun h => hnot (heq ▸ h ▸ hk')
          rw [if_neg hne]
        rw [put_cons_of_eq _ (hkey.trans heq),
          List.filterMap_cons_some (b := fresh) (by rw [if_pos heq]), hsame]
      · have hrec := ih hrest (List.nodup_cons.mp hnodup).2
          ((List.mem_cons.mp hmem).resolve_left fun h => heq h.symm)
        rw [put_cons_of_ne _ (fun h => heq (hkey.symm.trans h)),
          List.filterMap_cons_some (b := row) (by rw [if_neg heq, hrow]), hrec]

/-- The table that a history of stores leaves. -/
def putAll (key : α → κ) (entries : List α) : List α :=
  entries.foldl (fun table entry => put key entry table) []

theorem putAll_append_singleton (entries : List α) (entry : α) :
    putAll key (entries ++ [entry]) = put key entry (putAll key entries) := by
  rw [putAll, List.foldl_append]
  rfl

theorem nodup_map_key_putAll (entries : List α) :
    ((putAll key entries).map key).Nodup := by
  induction entries using List.reverseRecOn with
  | nil => exact List.nodup_nil
  | append_singleton entries entry ih =>
      rw [putAll_append_singleton]
      exact nodup_map_key_put ih

section Keys

variable [BEq κ] [LawfulBEq κ]

omit [DecidableEq κ] in
theorem eraseDups_append_singleton [DecidableEq κ] (keys : List κ) (k : κ) :
    (keys ++ [k]).eraseDups = if k ∈ keys then keys.eraseDups else keys.eraseDups ++ [k] := by
  rw [List.eraseDups_append]
  split
  · simp [List.removeAll, *]
  · simp [List.removeAll, List.eraseDups_cons, *]

/-- The keys stand in the order in which they first came. -/
theorem map_key_putAll (entries : List α) :
    (putAll key entries).map key = (entries.map key).eraseDups := by
  induction entries using List.reverseRecOn with
  | nil => rfl
  | append_singleton entries entry ih =>
      rw [putAll_append_singleton, map_key_put, ih, List.map_append, List.map_singleton,
        eraseDups_append_singleton]
      simp only [List.mem_eraseDups]

/-- **A history of stores, summed up.**  The table has one row for each key, in
the order in which the keys first came, and in it what was stored last. -/
theorem putAll_eq (entries : List α) :
    putAll key entries =
      (entries.map key).eraseDups.filterMap fun k =>
        entries.reverse.find? fun entry => key entry = k := by
  induction entries using List.reverseRecOn with
  | nil => rfl
  | append_singleton entries entry ih =>
      have hnodup : (entries.map key).eraseDups.Nodup :=
        by rw [← map_key_putAll]; exact nodup_map_key_putAll entries
      have hfind : ∀ k ∈ (entries.map key).eraseDups,
          ∃ row, (entries.reverse.find? fun entry => key entry = k) = some row ∧
            key row = k := by
        intro k hk
        obtain ⟨row, hrow, hkey⟩ := List.mem_map.mp (List.mem_eraseDups.mp hk)
        cases hsearch : entries.reverse.find? fun entry => key entry = k with
        | none =>
            rw [List.find?_eq_none] at hsearch
            exact absurd hkey (by simpa using hsearch row (List.mem_reverse.mpr hrow))
        | some found => exact ⟨found, rfl, by simpa using List.find?_some hsearch⟩
      have hlast : ∀ k, ((entries ++ [entry]).reverse.find? fun entry => key entry = k) =
          if k = key entry then some entry
          else entries.reverse.find? fun entry => key entry = k := by
        intro k
        rw [List.reverse_append, List.reverse_singleton, List.singleton_append,
          List.find?_cons]
        by_cases heq : k = key entry
        · simp [heq]
        · have hne : ¬ key entry = k := fun h => heq h.symm
          simp [heq, hne]
      rw [putAll_append_singleton, List.map_append, List.map_singleton,
        eraseDups_append_singleton]
      simp only [hlast]
      by_cases hmem : key entry ∈ entries.map key
      · rw [if_pos hmem, ih]
        exact put_filterMap hfind hnodup (List.mem_eraseDups.mpr hmem)
      · have hsame : ((entries.map key).eraseDups.filterMap fun k =>
              if k = key entry then some entry
              else entries.reverse.find? fun entry => key entry = k) =
            (entries.map key).eraseDups.filterMap fun k =>
              entries.reverse.find? fun entry => key entry = k := by
          apply List.filterMap_congr
          intro k hk
          have hne : k ≠ key entry := fun h => hmem (h ▸ List.mem_eraseDups.mp hk)
          rw [if_neg hne]
        have hnew : key entry ∉ (putAll key entries).map key := by
          rwa [map_key_putAll, List.mem_eraseDups]
        rw [if_neg hmem, put_of_not_mem hnew, List.filterMap_append, hsame, ih]
        simp

end Keys

end AirTraffic.Foundation
