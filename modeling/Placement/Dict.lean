/-! # Dictionaries: finite maps with text keys

Attributes, stored documents, recorded events and confirmed assignments are all
finite maps from text to something.  A `Dict` is the list of their entries **in
ascending key order**, each key once, so two dictionaries that answer every
lookup alike are equal (`Dict.ext_find?`) and nothing ever depends on the order
in which entries were added.

The operations are given on entry lists first (`Entries`), because a value of
the expression language nests such lists inside itself, where a type that
carries a proof cannot stand.
-/
namespace Placement

namespace Entries
variable {α β : Type}

/-- The keys strictly increase. -/
def Ascending (entries : List (String × α)) : Prop :=
  entries.Pairwise fun a b => a.1 < b.1

/-- The entry stored under `key`. -/
def find? (key : String) : List (String × α) → Option α
  | [] => none
  | (k, x) :: rest => if k = key then some x else find? key rest

/-- Store `x` under `key`, in place of what was there, keeping the order. -/
def put (key : String) (x : α) : List (String × α) → List (String × α)
  | [] => [(key, x)]
  | (k, y) :: rest =>
      if key < k then (key, x) :: (k, y) :: rest
      else if key = k then (key, x) :: rest
      else (k, y) :: put key x rest

/-- Drop the entry stored under `key`, if there is one. -/
def remove (key : String) (entries : List (String × α)) : List (String × α) :=
  entries.filter fun entry => entry.1 ≠ key

/-- Entries in any order, put into order; of two with one key the later stays. -/
def ofList (entries : List (String × α)) : List (String × α) :=
  entries.foldl (fun acc entry => put entry.1 entry.2 acc) []

@[simp] theorem find?_nil (key : String) : find? key ([] : List (String × α)) = none := rfl

theorem find?_cons (key k : String) (x : α) (rest : List (String × α)) :
    find? key ((k, x) :: rest) = if k = key then some x else find? key rest := rfl

theorem mem_of_find? {key : String} {x : α} {entries : List (String × α)}
    (h : find? key entries = some x) : (key, x) ∈ entries := by
  induction entries with
  | nil => simp at h
  | cons entry rest ih =>
      obtain ⟨k, y⟩ := entry
      rw [find?_cons] at h
      split at h
      · rename_i hk
        cases h
        exact hk ▸ List.mem_cons_self
      · exact List.mem_cons_of_mem _ (ih h)

theorem find?_put_self (key : String) (x : α) (entries : List (String × α)) :
    find? key (put key x entries) = some x := by
  induction entries with
  | nil => simp [put, find?]
  | cons entry rest ih =>
      obtain ⟨k, y⟩ := entry
      rw [put]
      split
      · simp [find?]
      · split
        · simp [find?]
        · rename_i hne
          simp [find?, Ne.symm hne, ih]

theorem find?_put_of_ne {key other : String} (h : key ≠ other) (x : α)
    (entries : List (String × α)) :
    find? other (put key x entries) = find? other entries := by
  induction entries with
  | nil => simp [put, find?, h]
  | cons entry rest ih =>
      obtain ⟨k, y⟩ := entry
      rw [put]
      split
      · simp [find?, h]
      · split
        · rename_i heq
          subst heq
          simp [find?, h]
        · simp [find?, ih]

theorem find?_put (key other : String) (x : α) (entries : List (String × α)) :
    find? other (put key x entries) = if key = other then some x else find? other entries := by
  split
  · rename_i h
    exact h ▸ find?_put_self key x entries
  · rename_i h
    exact find?_put_of_ne h x entries

theorem find?_remove (key other : String) (entries : List (String × α)) :
    find? other (remove key entries) = if key = other then none else find? other entries := by
  induction entries with
  | nil => simp [remove]
  | cons entry rest ih =>
      obtain ⟨k, y⟩ := entry
      simp only [remove, List.filter_cons] at ih ⊢
      by_cases hk : k = key
      · subst hk
        simp only [ne_eq, not_true_eq_false, decide_false, Bool.false_eq_true, if_false, ih, find?]
        split <;> rfl
      · simp only [ne_eq, hk, not_false_eq_true, decide_true, if_true, find?, ih]
        split
        · rename_i h
          subst h
          simp [Ne.symm hk]
        · rfl

theorem mem_put {key : String} {x : α} {entry : String × α} {entries : List (String × α)}
    (h : entry ∈ put key x entries) : entry = (key, x) ∨ entry ∈ entries := by
  induction entries with
  | nil => simpa [put] using h
  | cons e rest ih =>
      obtain ⟨k, y⟩ := e
      rw [put] at h
      grind

theorem ascending_nil : Ascending ([] : List (String × α)) := List.Pairwise.nil

theorem ascending_put (key : String) (x : α) {entries : List (String × α)}
    (h : Ascending entries) : Ascending (put key x entries) := by
  induction entries with
  | nil => simp [put, Ascending]
  | cons e rest ih =>
      obtain ⟨k, y⟩ := e
      obtain ⟨hk, hrest⟩ := List.pairwise_cons.mp h
      rw [put]
      split
      · rename_i hlt
        refine List.pairwise_cons.mpr ⟨fun a ha => ?_, h⟩
        rcases List.mem_cons.mp ha with rfl | ha
        · exact hlt
        · exact String.lt_trans hlt (hk a ha)
      · rename_i hnlt
        split
        · rename_i heq
          subst heq
          exact List.pairwise_cons.mpr ⟨hk, hrest⟩
        · rename_i hne
          refine List.pairwise_cons.mpr ⟨fun a ha => ?_, ih hrest⟩
          rcases mem_put ha with rfl | ha
          · have hle := String.not_lt.mp hnlt
            exact Classical.byContradiction fun hn =>
              hne (String.le_antisymm (String.not_lt.mp hn) hle)
          · exact hk a ha

theorem ascending_remove (key : String) {entries : List (String × α)} (h : Ascending entries) :
    Ascending (remove key entries) :=
  h.sublist List.filter_sublist

theorem ascending_ofList (entries : List (String × α)) : Ascending (ofList entries) := by
  suffices ∀ acc : List (String × α), Ascending acc →
      Ascending (entries.foldl (fun acc entry => put entry.1 entry.2 acc) acc) from
    this [] ascending_nil
  induction entries with
  | nil => exact fun _ h => h
  | cons e rest ih => exact fun acc h => ih _ (ascending_put e.1 e.2 h)

theorem mem_of_mem_ofList {entry : String × α} {entries : List (String × α)}
    (h : entry ∈ ofList entries) : entry ∈ entries := by
  suffices ∀ acc : List (String × α),
      entry ∈ entries.foldl (fun acc entry => put entry.1 entry.2 acc) acc →
        entry ∈ acc ∨ entry ∈ entries from
    (this [] h).resolve_left List.not_mem_nil
  clear h
  induction entries with
  | nil => exact fun _ h => .inl h
  | cons e rest ih =>
      intro acc h
      rcases ih _ h with h | h
      · rcases mem_put h with rfl | h
        · exact .inr List.mem_cons_self
        · exact .inl h
      · exact .inr (List.mem_cons_of_mem e h)

theorem find?_ofList (entries : List (String × α)) (key : String) :
    find? key (ofList entries) =
      (entries.reverse.find? fun entry => entry.1 == key).map Prod.snd := by
  -- the entries are put one by one into those that are there already
  suffices ∀ acc : List (String × α),
      find? key (entries.foldl (fun acc entry => put entry.1 entry.2 acc) acc) =
        ((entries.reverse.find? fun entry => entry.1 == key).map Prod.snd).or (find? key acc) from
    (this []).trans (Option.or_none ..)
  induction entries with
  | nil => exact fun _ => rfl
  | cons entry rest ih =>
      intro acc
      rw [List.foldl_cons, ih, find?_put, List.reverse_cons, List.find?_append]
      cases hrest : rest.reverse.find? fun entry => entry.1 == key with
      | some found => rfl
      | none => by_cases h : entry.1 = key <;> simp [h]

theorem ascending_map (f : String × α → β) {entries : List (String × α)} (h : Ascending entries) :
    Ascending (entries.map fun entry => (entry.1, f entry)) :=
  List.Pairwise.map _ (fun _ _ h => h) h

theorem find?_map (f : α → β) (key : String) (entries : List (String × α)) :
    find? key (entries.map fun entry => (entry.1, f entry.2)) = (find? key entries).map f := by
  induction entries with
  | nil => rfl
  | cons entry rest ih =>
      obtain ⟨k, x⟩ := entry
      rw [List.map_cons, find?_cons, find?_cons, ih]
      split <;> rfl

theorem put_map (f : α → β) (key : String) (x : α) (entries : List (String × α)) :
    put key (f x) (entries.map fun entry => (entry.1, f entry.2)) =
      (put key x entries).map fun entry => (entry.1, f entry.2) := by
  induction entries with
  | nil => rfl
  | cons entry rest ih =>
      obtain ⟨k, y⟩ := entry
      rw [List.map_cons, put, put]
      split
      · rfl
      · split
        · rfl
        · rw [ih, List.map_cons]

theorem ofList_map (f : α → β) (entries : List (String × α)) :
    ofList (entries.map fun entry => (entry.1, f entry.2)) =
      (ofList entries).map fun entry => (entry.1, f entry.2) := by
  suffices hgo : ∀ rest acc : List (String × α),
      (rest.map fun entry => (entry.1, f entry.2)).foldl
          (fun acc entry => put entry.1 entry.2 acc) (acc.map fun entry => (entry.1, f entry.2)) =
        (rest.foldl (fun acc entry => put entry.1 entry.2 acc) acc).map
          fun entry => (entry.1, f entry.2) from hgo entries []
  intro rest
  induction rest with
  | nil => intro acc; rfl
  | cons entry rest ih =>
      intro acc
      obtain ⟨k, x⟩ := entry
      simp only [List.map_cons, List.foldl_cons, put_map, ih]

/-- A key above all others goes to the end. -/
theorem put_eq_append {key : String} {x : α} {entries : List (String × α)}
    (h : ∀ entry ∈ entries, entry.1 < key) : put key x entries = entries ++ [(key, x)] := by
  induction entries with
  | nil => rfl
  | cons entry rest ih =>
      obtain ⟨k, y⟩ := entry
      have hk : k < key := h (k, y) List.mem_cons_self
      have hne : key ≠ k := fun he => String.lt_irrefl _ (he ▸ hk)
      rw [put, if_neg (String.lt_asymm hk), if_neg hne,
        ih fun e he => h e (List.mem_cons_of_mem _ he)]
      rfl

/-- Entries that are in order stay as they are. -/
theorem ofList_eq_self {entries : List (String × α)} (h : Ascending entries) :
    ofList entries = entries := by
  suffices hgo : ∀ (rest acc : List (String × α)), Ascending (acc ++ rest) →
      rest.foldl (fun acc entry => put entry.1 entry.2 acc) acc = acc ++ rest from
    hgo entries [] h
  intro rest
  induction rest with
  | nil => intro acc _; simp
  | cons entry rest ih =>
      intro acc hacc
      have hput : put entry.1 entry.2 acc = acc ++ [entry] :=
        put_eq_append fun e he => (List.pairwise_append.mp hacc).2.2 e he entry List.mem_cons_self
      rw [List.foldl_cons, hput, ih _ (by simpa using hacc)]
      simp

/-- In an ascending list a key that is below the first entry's is not stored. -/
theorem find?_eq_none_of_lt {key k : String} {x : α} {rest : List (String × α)}
    (h : Ascending ((k, x) :: rest)) (hlt : key < k) : find? key ((k, x) :: rest) = none := by
  obtain ⟨hk, _⟩ := List.pairwise_cons.mp h
  cases hf : find? key ((k, x) :: rest) with
  | none => rfl
  | some y =>
      rcases List.mem_cons.mp (mem_of_find? hf) with heq | hmem
      · cases heq
        exact absurd hlt (String.lt_irrefl _)
      · exact absurd (String.lt_trans hlt (hk _ hmem)) (String.lt_irrefl _)

/-- **Ascending lists with the same lookups are equal.** -/
theorem eq_of_find?_eq : ∀ {s t : List (String × α)}, Ascending s → Ascending t →
    (∀ key, find? key s = find? key t) → s = t
  | [], [], _, _, _ => rfl
  | [], (k, x) :: _, _, _, h => by have := h k; simp [find?] at this
  | (k, x) :: _, [], _, _, h => by have := h k; simp [find?] at this
  | (k, x) :: s, (l, y) :: t, hs, ht, h => by
      have hkl : k = l := by
        refine String.le_antisymm (String.not_lt.mp fun hlt => ?_) (String.not_lt.mp fun hlt => ?_)
        · have := h l
          rw [find?_eq_none_of_lt hs hlt] at this
          simp [find?] at this
        · have := h k
          rw [find?_eq_none_of_lt ht hlt] at this
          simp [find?] at this
      subst hkl
      have hxy : x = y := by simpa [find?] using h k
      subst hxy
      obtain ⟨hsk, hs'⟩ := List.pairwise_cons.mp hs
      obtain ⟨htk, ht'⟩ := List.pairwise_cons.mp ht
      have htail : s = t := eq_of_find?_eq hs' ht' fun key => by
        by_cases hk : k = key
        · subst hk
          have none_of : ∀ {u : List (String × α)}, (∀ a ∈ u, k < a.1) → find? k u = none := by
            intro u hu
            cases hf : find? k u with
            | none => rfl
            | some z => exact absurd (hu _ (mem_of_find? hf)) (String.lt_irrefl _)
          rw [none_of hsk, none_of htk]
        · simpa [find?, hk] using h key
      rw [htail]

/-- In an ascending list each entry is the one that its key finds. -/
theorem find?_of_mem {key : String} {x : α} {entries : List (String × α)}
    (h : Ascending entries) (hmem : (key, x) ∈ entries) : find? key entries = some x := by
  induction entries with
  | nil => exact absurd hmem List.not_mem_nil
  | cons entry rest ih =>
      obtain ⟨k, y⟩ := entry
      obtain ⟨hk, hrest⟩ := List.pairwise_cons.mp h
      rw [find?_cons]
      rcases List.mem_cons.mp hmem with heq | hmem
      · cases heq
        exact if_pos rfl
      · have hne : k ≠ key := fun heq => String.lt_irrefl _ (heq ▸ hk _ hmem)
        rw [if_neg hne, ih hrest hmem]

end Entries

/-- A finite map from text to `α`: its entries in ascending key order. -/
structure Dict (α : Type) where
  entries : List (String × α)
  ascending : Entries.Ascending entries

namespace Dict
variable {α β : Type}

/-- No entries. -/
def empty : Dict α := ⟨[], Entries.ascending_nil⟩

instance : EmptyCollection (Dict α) := ⟨empty⟩

instance : Inhabited (Dict α) := ⟨empty⟩

/-- The entry stored under `key`. -/
def find? (d : Dict α) (key : String) : Option α := Entries.find? key d.entries

/-- Whether something is stored under `key`. -/
def contains (d : Dict α) (key : String) : Bool := (d.find? key).isSome

/-- Store `x` under `key`, in place of what was there. -/
def insert (d : Dict α) (key : String) (x : α) : Dict α :=
  ⟨Entries.put key x d.entries, Entries.ascending_put key x d.ascending⟩

/-- Drop the entry stored under `key`, if there is one. -/
def erase (d : Dict α) (key : String) : Dict α :=
  ⟨Entries.remove key d.entries, Entries.ascending_remove key d.ascending⟩

/-- The dictionary of some entries in any order; of two with one key the later stays. -/
def ofList (entries : List (String × α)) : Dict α :=
  ⟨Entries.ofList entries, Entries.ascending_ofList entries⟩

/-- Apply `f` to every stored value. -/
def map (f : α → β) (d : Dict α) : Dict β :=
  ⟨d.entries.map fun entry => (entry.1, f entry.2),
    Entries.ascending_map (fun entry => f entry.2) d.ascending⟩

/-- Store entries one after the other. -/
def insertAll (d : Dict α) (entries : List (String × α)) : Dict α :=
  entries.foldl (fun acc entry => acc.insert entry.1 entry.2) d

/-- The entries of `d`, overridden by those of `e`. -/
def union (d e : Dict α) : Dict α := d.insertAll e.entries

/-- The keys, ascending. -/
def keys (d : Dict α) : List String := d.entries.map Prod.fst

/-- The stored values, by ascending key. -/
def values (d : Dict α) : List α := d.entries.map Prod.snd

@[simp] theorem find?_empty (key : String) : (∅ : Dict α).find? key = none := rfl

theorem find?_insert (d : Dict α) (key other : String) (x : α) :
    (d.insert key x).find? other = if key = other then some x else d.find? other :=
  Entries.find?_put key other x d.entries

@[simp] theorem find?_insert_self (d : Dict α) (key : String) (x : α) :
    (d.insert key x).find? key = some x :=
  Entries.find?_put_self key x d.entries

theorem find?_erase (d : Dict α) (key other : String) :
    (d.erase key).find? other = if key = other then none else d.find? other :=
  Entries.find?_remove key other d.entries

theorem find?_map (f : α → β) (d : Dict α) (key : String) :
    (d.map f).find? key = (d.find? key).map f :=
  Entries.find?_map f key d.entries

/-- An entry is what its key finds. -/
theorem mem_entries_iff {d : Dict α} {key : String} {x : α} :
    (key, x) ∈ d.entries ↔ d.find? key = some x :=
  ⟨Entries.find?_of_mem d.ascending, Entries.mem_of_find?⟩

/-- The keys of a dictionary of some entries are theirs. -/
theorem mem_keys_ofList {entries : List (String × α)} {key : String} :
    key ∈ (ofList entries).keys ↔ key ∈ entries.map Prod.fst := by
  rw [keys, List.mem_map, List.mem_map]
  constructor
  · rintro ⟨entry, hentry, hkey⟩
    exact ⟨entry, Entries.mem_of_mem_ofList hentry, hkey⟩
  · rintro ⟨entry, hentry, rfl⟩
    have hfound :
        ((entries.reverse.find? fun other => other.1 == entry.1).map Prod.snd).isSome := by
      rw [Option.isSome_map, List.find?_isSome]
      exact ⟨entry, List.mem_reverse.mpr hentry, beq_self_eq_true _⟩
    rw [← Entries.find?_ofList] at hfound
    obtain ⟨x, hx⟩ := Option.isSome_iff_exists.mp hfound
    exact ⟨(entry.1, x), Entries.mem_of_find? hx, rfl⟩

/-- The keys of a dictionary are ascending. -/
theorem pairwise_keys (d : Dict α) : d.keys.Pairwise (· < ·) :=
  List.pairwise_map.mpr d.ascending

theorem ofList_entries (d : Dict α) : ofList d.entries = d := by
  obtain ⟨entries, h⟩ := d
  simp only [ofList, Entries.ofList_eq_self h]

/-- **Dictionaries that answer every lookup alike are equal.** -/
theorem ext_find? {d e : Dict α} (h : ∀ key, d.find? key = e.find? key) : d = e := by
  obtain ⟨s, hs⟩ := d
  obtain ⟨t, ht⟩ := e
  have : s = t := Entries.eq_of_find?_eq hs ht h
  subst this
  rfl

/-- Dictionaries with the same entries are equal. -/
theorem entries_injective {d e : Dict α} (h : d.entries = e.entries) : d = e := by
  rw [← ofList_entries d, h, ofList_entries e]

theorem map_map {γ : Type} (g : β → γ) (f : α → β) (d : Dict α) :
    (d.map f).map g = d.map (g ∘ f) := by
  apply ext_find?
  intro key
  rw [find?_map, find?_map, find?_map, Option.map_map]

theorem map_insert (f : α → β) (d : Dict α) (key : String) (x : α) :
    (d.insert key x).map f = (d.map f).insert key (f x) := by
  apply ext_find?
  intro other
  rw [find?_map, find?_insert, find?_insert, find?_map]
  split <;> rfl

/-- To store again what is stored changes nothing. -/
theorem insert_eq_self {d : Dict α} {key : String} {x : α} (h : d.find? key = some x) :
    d.insert key x = d := by
  apply ext_find?
  intro other
  rw [find?_insert]
  split
  · rename_i hkey
    rw [← hkey, h]
  · rfl

theorem find?_insertAll_of_not_mem {entries : List (String × α)} {key : String}
    (h : key ∉ entries.map Prod.fst) (d : Dict α) :
    (d.insertAll entries).find? key = d.find? key := by
  induction entries generalizing d with
  | nil => rfl
  | cons entry rest ih =>
      rw [List.map_cons, List.mem_cons, not_or] at h
      show ((d.insert entry.1 entry.2).insertAll rest).find? key = _
      rw [ih h.2, find?_insert, if_neg fun he => h.1 he.symm]

/-- Of the entries stored one after the other, the last one with a key is found under it. -/
theorem find?_insertAll (entries : List (String × α)) (d : Dict α) (key : String) :
    (d.insertAll entries).find? key =
      ((entries.reverse.find? fun entry => entry.1 == key).map Prod.snd).or (d.find? key) := by
  induction entries generalizing d with
  | nil => rfl
  | cons entry rest ih =>
      show ((d.insert entry.1 entry.2).insertAll rest).find? key = _
      rw [ih, find?_insert, List.reverse_cons, List.find?_append]
      cases rest.reverse.find? fun entry => entry.1 == key with
      | some found => rfl
      | none => by_cases h : entry.1 = key <;> simp [h]

/-- To store the same entries again changes nothing. -/
theorem insertAll_insertAll (entries : List (String × α)) (d : Dict α) :
    (d.insertAll entries).insertAll entries = d.insertAll entries := by
  apply ext_find?
  intro key
  rw [find?_insertAll, find?_insertAll]
  cases (entries.reverse.find? fun entry => entry.1 == key).map Prod.snd <;> rfl

instance [BEq α] : BEq (Dict α) := ⟨fun d e => d.entries == e.entries⟩

instance [DecidableEq α] : DecidableEq (Dict α) := fun d e =>
  decidable_of_iff (d.entries = e.entries)
    ⟨fun h => by cases d; cases e; cases h; rfl, fun h => h ▸ rfl⟩

end Dict
end Placement
