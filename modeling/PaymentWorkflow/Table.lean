import Mathlib.Data.List.Sort
import Mathlib.Data.List.Nodup

/-!
Tables as lists of rows: the `UPDATE … WHERE`, `ORDER BY … LIMIT 1` and primary-key
lookups a relational program is written in, with the laws its proofs use.
-/

namespace Table

variable {Row Key : Type}

def update (matched : Row → Bool) (change : Row → Row) (table : List Row) : List Row :=
  table.map fun row => if matched row then change row else row

@[simp] theorem update_nil (matched : Row → Bool) (change : Row → Row) :
    update matched change [] = [] := rfl

@[simp] theorem update_cons (matched : Row → Bool) (change : Row → Row) (row : Row)
    (rest : List Row) :
    update matched change (row :: rest) =
      (if matched row then change row else row) :: update matched change rest := rfl

@[simp] theorem update_append (matched : Row → Bool) (change : Row → Row) (left right : List Row) :
    update matched change (left ++ right) =
      update matched change left ++ update matched change right := by
  simp [update]

theorem mem_update {matched : Row → Bool} {change : Row → Row} {row : Row} {table : List Row} :
    row ∈ update matched change table ↔
      ∃ old ∈ table, (if matched old then change old else old) = row := by
  simp [update]

theorem forall_update {matched : Row → Bool} {change : Row → Row} {table : List Row}
    {holds : Row → Prop} (before : ∀ row ∈ table, holds row)
    (kept : ∀ row, matched row = true → holds row → holds (change row)) :
    ∀ row ∈ update matched change table, holds row := by
  intro row member
  obtain ⟨old, inside, rfl⟩ := mem_update.mp member
  split
  · rename_i hit
    exact kept old hit (before old inside)
  · exact before old inside

theorem map_update (key : Row → Key) (matched : Row → Bool) (change : Row → Row)
    (stable : ∀ row, key (change row) = key row) (table : List Row) :
    (update matched change table).map key = table.map key := by
  simp only [update, List.map_map]
  apply List.map_congr_left
  intro row _
  by_cases hit : matched row = true <;> simp [hit, stable]

theorem update_eq_self (matched : Row → Bool) (change : Row → Row) (table : List Row)
    (missed : ∀ row ∈ table, matched row = false) : update matched change table = table := by
  induction table with
  | nil => rfl
  | cons row rest ih =>
      have head := missed row (by simp)
      have tail := ih (fun other member => missed other (by simp [member]))
      simp [head, tail]

theorem filter_update_stay (keep matched : Row → Bool) (change : Row → Row) (table : List Row)
    (stable : ∀ row ∈ table, matched row = true → keep (change row) = keep row) :
    (update matched change table).filter keep = update matched change (table.filter keep) := by
  induction table with
  | nil => rfl
  | cons row rest ih =>
      have head := stable row (by simp)
      have tail := ih fun other member => stable other (by simp [member])
      by_cases hit : matched row = true <;> by_cases kept : keep row = true <;>
        simp [hit, kept, tail, head]

theorem filter_update (keep matched : Row → Bool) (change : Row → Row)
    (stable : ∀ row, keep (change row) = keep row) (table : List Row) :
    (update matched change table).filter keep = update matched change (table.filter keep) :=
  filter_update_stay keep matched change table fun row _ _ => stable row

/-- An update of rows that are and stay outside a selection does not show in it. -/
theorem filter_update_away (keep matched : Row → Bool) (change : Row → Row) (table : List Row)
    (before : ∀ row ∈ table, matched row = true → keep row = false)
    (after : ∀ row ∈ table, matched row = true → keep (change row) = false) :
    (update matched change table).filter keep = table.filter keep := by
  induction table with
  | nil => rfl
  | cons row rest ih =>
      have tail := ih (fun other member => before other (by simp [member]))
        (fun other member => after other (by simp [member]))
      by_cases hit : matched row = true
      · simp [hit, tail, before row (by simp) hit, after row (by simp) hit]
      · by_cases kept : keep row = true <;> simp [hit, kept, tail]

theorem update_last [DecidableEq Key] {key : Row → Key} {change : Row → Row} {earlier : List Row}
    {last : Row} (unique : ((earlier ++ [last]).map key).Nodup) :
    update (fun row => key row = key last) change (earlier ++ [last]) =
      earlier ++ [change last] := by
  have missed : ∀ row ∈ earlier, decide (key row = key last) = false := by
    intro row member
    simp only [decide_eq_false_iff_not]
    rw [List.map_append, List.nodup_append] at unique
    exact unique.2.2 (key row) (List.mem_map_of_mem member) (key last) (by simp)
  rw [update_append, update_eq_self _ _ _ missed]
  simp

theorem update_update (matched : Row → Bool) (inner outer : Row → Row)
    (stable : ∀ row, matched (inner row) = matched row) (table : List Row) :
    update matched outer (update matched inner table) =
      update matched (fun row => outer (inner row)) table := by
  simp only [update, List.map_map]
  apply List.map_congr_left
  intro row _
  by_cases hit : matched row = true <;> simp [hit, stable]

/-- Rows an update moves out of a selection leave it; the others stay as they were. -/
theorem filter_update_leave (keep matched : Row → Bool) (change : Row → Row)
    (leaves : ∀ row, keep (change row) = false) (table : List Row) :
    (update matched change table).filter keep =
      (table.filter keep).filter fun row => !matched row := by
  induction table with
  | nil => rfl
  | cons row rest ih =>
      by_cases hit : matched row = true <;> by_cases kept : keep row = true <;>
        simp [hit, kept, leaves, ih]

/-- An update of one row, found by its key, that brings it into a selection. -/
theorem perm_filter_update_enter [DecidableEq Key] {key : Row → Key} {keep : Row → Bool}
    {change : Row → Row} {table : List Row} {row : Row} (unique : (table.map key).Nodup)
    (member : row ∈ table) (before : keep row = false) (after : keep (change row) = true) :
    ((update (fun other => key other = key row) change table).filter keep).Perm
      (table.filter keep ++ [change row]) := by
  induction table with
  | nil => simp at member
  | cons head rest ih =>
      simp only [List.map_cons, List.nodup_cons, List.mem_map, not_exists, not_and] at unique
      rcases List.mem_cons.mp member with rfl | inside
      · have others : update (fun other => decide (key other = key row)) change rest = rest := by
          apply update_eq_self
          intro other otherMember
          simpa using unique.1 other otherMember
        simpa [others, before, after] using
          (List.perm_append_singleton (change row) (rest.filter keep)).symm
      · have different : key head ≠ key row := fun same => unique.1 row inside same.symm
        have tail := ih unique.2 inside
        by_cases kept : keep head = true <;> simp [different, kept, tail]

theorem length_filter_update_enter [DecidableEq Key] {key : Row → Key} {keep : Row → Bool}
    {change : Row → Row} {table : List Row} {row : Row} (unique : (table.map key).Nodup)
    (member : row ∈ table) (before : keep row = false) (after : keep (change row) = true) :
    ((update (fun other => key other = key row) change table).filter keep).length =
      (table.filter keep).length + 1 := by
  rw [(perm_filter_update_enter unique member before after).length_eq, List.length_append]
  rfl

/-! Lookups by a key. -/

def lookup [DecidableEq Key] (key : Row → Key) (value : Key) (table : List Row) : Option Row :=
  table.find? fun row => key row = value

theorem lookup_mem [DecidableEq Key] {key : Row → Key} {value : Key} {table : List Row} {row : Row}
    (found : lookup key value table = some row) : row ∈ table ∧ key row = value :=
  ⟨List.mem_of_find?_eq_some found, by simpa using List.find?_some found⟩

theorem lookup_eq_none [DecidableEq Key] {key : Row → Key} {value : Key} {table : List Row} :
    lookup key value table = none ↔ ∀ row ∈ table, key row ≠ value := by
  simp [lookup]

theorem key_unique {key : Row → Key} {table : List Row} (unique : (table.map key).Nodup)
    {left right : Row} (leftMember : left ∈ table) (rightMember : right ∈ table)
    (same : key left = key right) : left = right :=
  List.inj_on_of_nodup_map unique leftMember rightMember same

theorem filter_key [DecidableEq Key] {key : Row → Key} {table : List Row}
    (unique : (table.map key).Nodup) {row : Row} (member : row ∈ table) :
    table.filter (fun other => key other = key row) = [row] := by
  induction table with
  | nil => cases member
  | cons head rest ih =>
      have apart := List.nodup_cons.mp unique
      rcases List.mem_cons.mp member with rfl | later
      · rw [List.filter_cons_of_pos (by simp), List.filter_eq_nil_iff.mpr]
        intro other otherMember same
        exact apart.1 (List.mem_map.mpr ⟨other, otherMember, by simpa using same⟩)
      · rw [List.filter_cons_of_neg, ih apart.2 later]
        intro same
        exact apart.1 (List.mem_map.mpr ⟨row, later, by simpa using Eq.symm (by simpa using same)⟩)

theorem length_filter_key_le [DecidableEq Key] {key : Row → Key} {table : List Row}
    (unique : (table.map key).Nodup) (value : Key) :
    (table.filter fun row => key row = value).length ≤ 1 := by
  cases found : table.filter fun row => key row = value with
  | nil => exact Nat.zero_le 1
  | cons row rest =>
      have member : row ∈ table.filter fun other => key other = value := found ▸ List.mem_cons_self
      obtain ⟨inside, same⟩ := List.mem_filter.mp member
      have only := filter_key unique inside
      rw [of_decide_eq_true same, found] at only
      rw [only]
      exact Nat.le_refl 1

theorem lookup_of_mem [DecidableEq Key] {key : Row → Key} {table : List Row}
    (unique : (table.map key).Nodup) {row : Row} (member : row ∈ table) :
    lookup key (key row) table = some row := by
  cases found : lookup key (key row) table with
  | none => exact absurd rfl (lookup_eq_none.mp found row member)
  | some other =>
      have facts := lookup_mem found
      rw [key_unique unique facts.1 member facts.2]

theorem lookup_update [DecidableEq Key] (key : Row → Key) (value : Key) (matched : Row → Bool)
    (change : Row → Row) (stable : ∀ row, key (change row) = key row) (table : List Row) :
    lookup key value (update matched change table) =
      (lookup key value table).map fun row => if matched row then change row else row := by
  induction table with
  | nil => rfl
  | cons row rest ih =>
      have same : key (if matched row then change row else row) = key row := by
        by_cases hit : matched row = true <;> simp [hit, stable]
      simp only [lookup, update_cons, List.find?_cons, same] at ih ⊢
      by_cases equal : key row = value
      · simp [equal]
      · simp [equal, ih]

theorem lookup_append [DecidableEq Key] (key : Row → Key) (value : Key) (left right : List Row) :
    lookup key value (left ++ right) =
      (lookup key value left).or (lookup key value right) := by
  simp [lookup, List.find?_append]

/-! `ORDER BY … LIMIT 1`. -/

def first (before : Row → Row → Bool) : List Row → Option Row
  | [] => none
  | row :: rest =>
      match first before rest with
      | none => some row
      | some best => if before best row then some best else some row

theorem first_eq_none {before : Row → Row → Bool} {table : List Row} :
    first before table = none ↔ table = [] := by
  cases table with
  | nil => simp [first]
  | cons row rest =>
      simp only [first, reduceCtorEq, iff_false]
      split
      · simp
      · split <;> simp

theorem first_mem {before : Row → Row → Bool} {table : List Row} {row : Row}
    (found : first before table = some row) : row ∈ table := by
  induction table generalizing row with
  | nil => simp [first] at found
  | cons head rest ih =>
      simp only [first] at found
      split at found
      · simp at found
        simp [found]
      · rename_i best bestFound
        split at found
        · simp only [Option.some.injEq] at found
          subst found
          simp [ih bestFound]
        · simp only [Option.some.injEq] at found
          simp [found]

theorem first_singleton (before : Row → Row → Bool) (row : Row) :
    first before [row] = some row := rfl

/-! `SELECT … WHERE … ORDER BY … SKIP LOCKED LIMIT n`. -/

def takeLimit : Option Int → List Row → List Row
  | none, rows => rows
  | some limit, rows => rows.take limit.toNat

theorem takeLimit_sublist (limit : Option Int) (rows : List Row) :
    (takeLimit limit rows).Sublist rows := by
  cases limit with
  | none => exact List.Sublist.refl rows
  | some count => exact List.take_sublist _ rows

theorem sorted_pick {key : Row → Key} {keep : Row → Bool} {table sorted picked : List Row}
    (unique : (table.map key).Nodup) (order : sorted.Perm (table.filter keep))
    (part : picked.Sublist sorted) :
    (picked.map key).Nodup ∧ ∀ row ∈ picked, row ∈ table ∧ keep row = true := by
  constructor
  · have filtered : ((table.filter keep).map key).Nodup :=
      unique.sublist (List.filter_sublist.map key)
    exact ((order.map key).nodup_iff.mpr filtered).sublist (part.map key)
  · intro row member
    exact List.mem_filter.mp (order.mem_iff.mp (part.subset member))

/-! The writes of a transaction, over rows that others may have changed since it began. -/

/-- `before` is the table a transaction found and `after` the one it leaves. What it wrote
replaces the current rows; what it inserted must not have the key of a current row. -/
def merge? [DecidableEq Key] [DecidableEq Row] (key : Row → Key) (before after current : List Row) :
    Option (List Row) :=
  let inserted := after.filter fun row => (lookup key (key row) before).isNone
  if inserted.any fun row => (lookup key (key row) current).isSome then none
  else
    some (current.map (fun row =>
      match lookup key (key row) after with
      | some written => if lookup key (key row) before = some written then row else written
      | none => row) ++ inserted)

def overwrite [DecidableEq Key] [DecidableEq Row] (key : Row → Key) (matched : Row → Bool)
    (change : Row → Row) (before : List Row) (row : Row) : Row :=
  match lookup key (key row) before with
  | some found => if matched found = true ∧ change found ≠ found then change found else row
  | none => row

theorem merge?_eq [DecidableEq Key] [DecidableEq Row] {key : Row → Key} {matched : Row → Bool}
    {change : Row → Row} {before added current merged : List Row}
    (stable : ∀ row, key (change row) = key row)
    (fresh : ∀ row ∈ added, lookup key (key row) before = none)
    (same : merge? key before (update matched change before ++ added) current = some merged) :
    merged = current.map (overwrite key matched change before) ++ added ∧
      ∀ row ∈ added, lookup key (key row) current = none := by
  have inserted : (update matched change before ++ added).filter
      (fun row => (lookup key (key row) before).isNone) = added := by
    have none_ : (update matched change before).filter
        (fun row => (lookup key (key row) before).isNone) = [] := by
      rw [List.filter_eq_nil_iff]
      intro row member absent
      obtain ⟨old, oldMember, rfl⟩ := mem_update.mp member
      have sameKey : key (if matched old = true then change old else old) = key old := by
        split
        · exact stable old
        · rfl
      rw [sameKey, Option.isNone_iff_eq_none, lookup_eq_none] at absent
      exact absent old oldMember rfl
    have all : added.filter (fun row => (lookup key (key row) before).isNone) = added := by
      rw [List.filter_eq_self]
      intro row member
      simp [fresh row member]
    rw [List.filter_append, none_, all, List.nil_append]
  simp only [merge?, inserted] at same
  split at same
  · simp at same
  rename_i clear
  have unused : ∀ row ∈ added, lookup key (key row) current = none := by
    simpa [Option.isSome_iff_ne_none] using clear
  refine ⟨?_, unused⟩
  rw [← Option.some.inj same]
  congr 1
  apply List.map_congr_left
  intro row member
  have notAdded : lookup key (key row) added = none := by
    rw [lookup_eq_none]
    intro other otherMember equal
    exact lookup_eq_none.mp (unused other otherMember) row member equal.symm
  simp only [overwrite, lookup_append, notAdded, Option.or_none,
    lookup_update key (key row) matched change stable]
  cases found : lookup key (key row) before with
  | none => rfl
  | some old =>
      by_cases hit : matched old = true
      · by_cases moved : change old = old
        · simp [hit, moved]
        · simp [hit, moved, Ne.symm moved]
      · simp [hit]

theorem overwrite_key [DecidableEq Key] [DecidableEq Row] {key : Row → Key}
    {matched : Row → Bool} {change : Row → Row} (before : List Row)
    (stable : ∀ row, key (change row) = key row) (row : Row) :
    key (overwrite key matched change before row) = key row := by
  simp only [overwrite]
  split
  · rename_i found
    split
    · rw [stable, (lookup_mem found).2]
    · rfl
  · rfl

end Table
