import Mathlib.Data.List.Nodup
import Mathlib.Data.List.Perm.Basic
import RegisterBank.Document.Tree
import RegisterBank.Proofs.Text.Order

/-!
# Entries put in place

An entry that is put among others can be looked up there, hides what stood
under its key, and leaves other keys alone.  Entries of different keys may be
put in any order, which is why a reader that meets the values of a table before
its sub-tables lists the same table in the end.

Entries that were put in one by one stand in the order of their keys, and then
there is one way only to list what can be looked up.
-/

namespace RegisterBank.Document

variable {α β : Type} {key other : String} {value previous : α}

/-! ## One entry -/

theorem lookup?_cons_self (key : String) (value : α) (entries : List (String × α)) :
    lookup? key ((key, value) :: entries) = some value := by
  simp [lookup?]

theorem lookup?_cons_of_ne (apart : other ≠ key) (value : α) (entries : List (String × α)) :
    lookup? key ((other, value) :: entries) = lookup? key entries := by
  simp [lookup?, apart]

theorem exists_lookup?_of_mem {entries : List (String × α)} (listed : (key, value) ∈ entries) :
    ∃ found, lookup? key entries = some found := by
  have some : (entries.find? fun entry => entry.1 == key).isSome = true :=
    List.find?_isSome.mpr ⟨_, listed, beq_self_eq_true key⟩
  obtain ⟨entry, first⟩ := Option.isSome_iff_exists.mp some
  exact ⟨entry.2, congrArg (Option.map Prod.snd) first⟩

theorem mem_keys_of_lookup? {entries : List (String × α)} (given : lookup? key entries = some value) :
    key ∈ entries.map Prod.fst := by
  obtain ⟨entry, first, rfl⟩ := Option.map_eq_some_iff.mp given
  have same := List.find?_some first
  rw [← beq_iff_eq.mp same]
  exact List.mem_map_of_mem (List.mem_of_find?_eq_some first)

theorem insertEntry_cons (key : String) (value : α) (entry : String × α)
    (entries : List (String × α)) : insertEntry key value (entry :: entries) =
      match Text.order key entry.1 with
      | .lt => (key, value) :: entry :: entries
      | .eq => (key, value) :: entries
      | .gt => entry :: insertEntry key value entries :=
  rfl

theorem lookup?_insertEntry_self (key : String) (value : α) (entries : List (String × α)) :
    lookup? key (insertEntry key value entries) = some value := by
  induction entries with
  | nil => exact lookup?_cons_self key value []
  | cons entry rest ih =>
    rw [insertEntry_cons]
    cases compared : Text.order key entry.1 with
    | lt => exact lookup?_cons_self key value _
    | eq => exact lookup?_cons_self key value _
    | gt =>
      have apart : entry.1 ≠ key := by
        intro same
        rw [← same, Text.order_eq_iff.mpr rfl] at compared
        cases compared
      exact (lookup?_cons_of_ne apart entry.2 _).trans ih

theorem lookup?_insertEntry_of_ne (apart : other ≠ key) (value : α)
    (entries : List (String × α)) :
    lookup? key (insertEntry other value entries) = lookup? key entries := by
  induction entries with
  | nil => exact lookup?_cons_of_ne apart value []
  | cons entry rest ih =>
    rw [insertEntry_cons]
    cases compared : Text.order other entry.1 with
    | lt => exact lookup?_cons_of_ne apart value _
    | eq =>
      have same := Text.order_eq_iff.mp compared
      have hidden : entry.1 ≠ key := same ▸ apart
      exact (lookup?_cons_of_ne apart value rest).trans (lookup?_cons_of_ne hidden entry.2 rest).symm
    | gt =>
      by_cases same : entry.1 = key
      · obtain ⟨found, content⟩ := entry
        obtain rfl : found = key := same
        exact (lookup?_cons_self found content _).trans (lookup?_cons_self found content _).symm
      · exact (lookup?_cons_of_ne same entry.2 _).trans
          (ih.trans (lookup?_cons_of_ne same entry.2 rest).symm)

/-- The later of two entries with one key stays. -/
theorem insertEntry_insertEntry (key : String) (value previous : α)
    (entries : List (String × α)) :
    insertEntry key value (insertEntry key previous entries) = insertEntry key value entries := by
  have self : Text.order key key = .eq := Text.order_eq_iff.mpr rfl
  induction entries with
  | nil =>
    show insertEntry key value [(key, previous)] = [(key, value)]
    rw [insertEntry_cons, self]
  | cons entry rest ih =>
    rw [insertEntry_cons key previous, insertEntry_cons key value entry]
    cases compared : Text.order key entry.1 with
    | lt =>
      show insertEntry key value ((key, previous) :: entry :: rest) = _
      rw [insertEntry_cons, self]
    | eq =>
      show insertEntry key value ((key, previous) :: rest) = _
      rw [insertEntry_cons, self]
    | gt =>
      show insertEntry key value (entry :: insertEntry key previous rest) = _
      rw [insertEntry_cons, compared]
      exact congrArg (entry :: ·) ih

theorem removeEntry_of_lookup? {entries : List (String × α)} (free : lookup? key entries = none) :
    removeEntry key entries = entries := by
  unfold removeEntry
  rw [List.filter_eq_self]
  intro entry listed
  unfold lookup? at free
  rw [Option.map_eq_none_iff, List.find?_eq_none] at free
  exact bne_iff_ne.mpr fun same => free entry listed (beq_iff_eq.mpr same)

/-! ## Entries of different keys -/

/-- Entries of two keys may be put in either order; here the first key is the
lower one. -/
theorem insertEntry_comm_of_lt (low : Text.order key other = .lt) (value previous : α)
    (entries : List (String × α)) :
    insertEntry key value (insertEntry other previous entries) =
      insertEntry other previous (insertEntry key value entries) := by
  have high := Text.order_lt_iff_gt.mp low
  induction entries with
  | nil =>
    show insertEntry key value [(other, previous)] = insertEntry other previous [(key, value)]
    rw [insertEntry_cons, insertEntry_cons, low, high]
    rfl
  | cons entry rest ih =>
    rw [insertEntry_cons other previous entry rest, insertEntry_cons key value entry rest]
    -- Where the lower key comes; the higher one comes no earlier.
    cases compared : Text.order key entry.1 with
    | lt =>
      show _ = insertEntry other previous ((key, value) :: entry :: rest)
      rw [insertEntry_cons other previous (key, value), high]
      simp only
      rw [insertEntry_cons other previous entry rest]
      cases Text.order other entry.1 with
      | lt =>
        show insertEntry key value ((other, previous) :: entry :: rest) = _
        rw [insertEntry_cons, low]
      | eq =>
        show insertEntry key value ((other, previous) :: rest) = _
        rw [insertEntry_cons, low]
      | gt =>
        show insertEntry key value (entry :: insertEntry other previous rest) = _
        rw [insertEntry_cons, compared]
    | eq =>
      have same := Text.order_eq_iff.mp compared
      rw [← same, high]
      show insertEntry key value (entry :: insertEntry other previous rest) =
        insertEntry other previous ((key, value) :: rest)
      rw [insertEntry_cons, compared, insertEntry_cons, high]
    | gt =>
      have above : Text.order entry.1 key = .lt := Text.order_lt_iff_gt.mpr compared
      have beyond := Text.order_lt_iff_gt.mp (Text.order_lt_trans above low)
      rw [beyond]
      show insertEntry key value (entry :: insertEntry other previous rest) =
        insertEntry other previous (entry :: insertEntry key value rest)
      rw [insertEntry_cons, compared, insertEntry_cons, beyond]
      exact congrArg (entry :: ·) ih

/-- The order in which different keys are entered does not show. -/
theorem insertEntry_comm (apart : key ≠ other) (value previous : α)
    (entries : List (String × α)) :
    insertEntry key value (insertEntry other previous entries) =
      insertEntry other previous (insertEntry key value entries) := by
  rcases Text.order_lt_or_gt apart with low | high
  · exact insertEntry_comm_of_lt low value previous entries
  · exact (insertEntry_comm_of_lt (Text.order_lt_iff_gt.mpr high) previous value entries).symm

/-! ## Many entries -/

/-- The entries of `done` with others put among them. -/
def extended (done entries : List (String × α)) : List (String × α) :=
  entries.foldl (fun sorted entry => insertEntry entry.1 entry.2 sorted) done

theorem extended_cons (done entries : List (String × α)) (entry : String × α) :
    extended done (entry :: entries) = extended (insertEntry entry.1 entry.2 done) entries := rfl

theorem extended_append (done entries others : List (String × α)) :
    extended done (entries ++ others) = extended (extended done entries) others :=
  List.foldl_append

/-- Entries under other keys do not change a look-up. -/
theorem lookup?_extended_of_not_mem {done entries : List (String × α)}
    (apart : key ∉ entries.map Prod.fst) : lookup? key (extended done entries) = lookup? key done := by
  induction entries generalizing done with
  | nil => rfl
  | cons entry rest ih =>
    rw [List.map_cons, List.mem_cons, not_or] at apart
    rw [extended_cons, ih apart.2, lookup?_insertEntry_of_ne (Ne.symm apart.1)]

/-- Entries whose keys are different may be put in any order. -/
theorem extended_perm {entries others : List (String × α)} (perm : entries.Perm others)
    (nodup : (entries.map Prod.fst).Nodup) (done : List (String × α)) :
    extended done entries = extended done others := by
  unfold extended
  refine perm.foldl_eq' ?_ done
  intro entry listed next also done
  by_cases same : entry.1 = next.1
  · have one := List.inj_on_of_nodup_map nodup listed also same
    rw [one]
  · exact insertEntry_comm (Ne.symm same) next.2 entry.2 done

theorem insertEntry_map (change : α → β) (key : String) (value : α) (entries : List (String × α)) :
    (insertEntry key value entries).map (Prod.map id change) =
      insertEntry key (change value) (entries.map (Prod.map id change)) := by
  induction entries with
  | nil => rfl
  | cons entry rest ih =>
    rw [insertEntry_cons, List.map_cons, insertEntry_cons]
    show _ = match Text.order key entry.1 with
      | .lt => _
      | .eq => _
      | .gt => _
    cases Text.order key entry.1 with
    | lt => rfl
    | eq => rfl
    | gt => exact congrArg (Prod.map id change entry :: ·) ih

/-! ## Entries in the order of their keys -/

/-- Entries in the order of their keys, with no key twice. -/
def InKeyOrder (entries : List (String × α)) : Prop :=
  entries.Pairwise fun first second => Text.order first.1 second.1 = .lt

theorem inKeyOrder_nil : InKeyOrder ([] : List (String × α)) := List.Pairwise.nil

/-- An entry is the new one or was there before. -/
theorem mem_insertEntry {entry : String × α} {entries : List (String × α)}
    (listed : entry ∈ insertEntry key value entries) : entry = (key, value) ∨ entry ∈ entries := by
  induction entries with
  | nil => exact .inl (List.mem_singleton.mp listed)
  | cons first rest ih =>
    rw [insertEntry_cons] at listed
    cases compared : Text.order key first.1 with
    | lt =>
      rw [compared] at listed
      exact List.mem_cons.mp listed
    | eq =>
      rw [compared] at listed
      exact (List.mem_cons.mp listed).imp_right (List.mem_cons_of_mem _)
    | gt =>
      rw [compared] at listed
      rcases List.mem_cons.mp listed with rfl | behind
      · exact .inr List.mem_cons_self
      · exact (ih behind).imp_right (List.mem_cons_of_mem _)

/-- Entering a value keeps the keys in order. -/
theorem InKeyOrder.insertEntry {entries : List (String × α)} (ordered : InKeyOrder entries)
    (key : String) (value : α) : InKeyOrder (insertEntry key value entries) := by
  induction entries with
  | nil => exact List.pairwise_singleton _ _
  | cons first rest ih =>
    obtain ⟨above, others⟩ := List.pairwise_cons.mp ordered
    rw [insertEntry_cons]
    cases compared : Text.order key first.1 with
    | lt =>
      refine List.pairwise_cons.mpr ⟨?_, ordered⟩
      refine List.forall_mem_cons.mpr ⟨compared, ?_⟩
      intro entry listed
      exact Text.order_lt_trans compared (above entry listed)
    | eq =>
      have same : key = first.1 := Text.order_eq_iff.mp compared
      refine List.pairwise_cons.mpr ⟨?_, others⟩
      rw [same]
      exact above
    | gt =>
      refine List.pairwise_cons.mpr ⟨?_, ih others⟩
      intro entry listed
      rcases mem_insertEntry listed with rfl | behind
      · exact Text.order_lt_iff_gt.mpr compared
      · exact above entry behind

/-- A key below all others is not found. -/
theorem lookup?_of_below {entries : List (String × α)}
    (below : ∀ entry ∈ entries, Text.order key entry.1 = .lt) : lookup? key entries = none := by
  unfold lookup?
  rw [Option.map_eq_none_iff, List.find?_eq_none]
  intro entry listed same
  have compared := below entry listed
  rw [Text.order_eq_iff.mpr (beq_iff_eq.mp same).symm] at compared
  cases compared

/-- A key that comes before all of one list is not the first of another that has
the same values. -/
theorem not_lt_of_lookup? {entry : String × α} {rest others : List (String × α)}
    (ordered : InKeyOrder others)
    (same : ∀ key, lookup? key (entry :: rest) = lookup? key others)
    {first : String × α} (starts : others.head? = some first) :
    Text.order entry.1 first.1 ≠ .lt := by
  intro low
  obtain ⟨behind, rfl⟩ := List.head?_eq_some_iff.mp starts
  have below : ∀ other ∈ first :: behind, Text.order entry.1 other.1 = .lt := by
    refine List.forall_mem_cons.mpr ⟨low, ?_⟩
    intro other listed
    exact Text.order_lt_trans low ((List.pairwise_cons.mp ordered).1 other listed)
  have found := same entry.1
  rw [lookup?_of_below below, lookup?_cons_self] at found
  cases found

/-- Entries in key order are given by what can be looked up. -/
theorem eq_of_lookup? {entries others : List (String × α)} (ordered : InKeyOrder entries)
    (ordered' : InKeyOrder others) (same : ∀ key, lookup? key entries = lookup? key others) :
    entries = others := by
  induction entries generalizing others with
  | nil =>
    cases others with
    | nil => rfl
    | cons first rest =>
      have found := same first.1
      rw [lookup?_cons_self] at found
      cases found
  | cons entry rest ih =>
    cases others with
    | nil =>
      have found := same entry.1
      rw [lookup?_cons_self] at found
      cases found
    | cons first behind =>
      obtain ⟨above, inner⟩ := List.pairwise_cons.mp ordered
      obtain ⟨above', inner'⟩ := List.pairwise_cons.mp ordered'
      -- The lower of two first keys would be looked up on one side only.
      have keys : entry.1 = first.1 := by
        by_contra apart
        rcases Text.order_lt_or_gt apart with low | high
        · exact not_lt_of_lookup? ordered' same rfl low
        · refine not_lt_of_lookup? ordered (fun key => (same key).symm) rfl ?_
          exact Text.order_lt_iff_gt.mpr high
      have values : some entry.2 = some first.2 := calc
        some entry.2 = lookup? entry.1 (entry :: rest) :=
          (lookup?_cons_self entry.1 entry.2 rest).symm
        _ = lookup? entry.1 (first :: behind) := same entry.1
        _ = lookup? first.1 (first :: behind) := by rw [keys]
        _ = some first.2 := lookup?_cons_self first.1 first.2 behind
      have tails : rest = behind := by
        refine ih inner inner' fun key => ?_
        by_cases own : entry.1 = key
        · rw [← own, lookup?_of_below above, keys, lookup?_of_below above']
        · rw [← lookup?_cons_of_ne own entry.2 rest,
            ← lookup?_cons_of_ne (keys ▸ own) first.2 behind]
          exact same key
      rw [tails, Prod.ext keys (Option.some.inj values)]

end RegisterBank.Document
