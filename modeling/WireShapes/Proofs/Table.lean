import Mathlib.Data.List.Induction
import Mathlib.Data.List.Nodup
import WireShapes.Model.Table

/-!
# Look-ups in tables

What a look-up finds after the values of a table were changed in their places, and what is left of
entries that were put into a table one after the other: each key once, with its latest value.  Where
items are looked up by a key that they may share, the first one is found.
-/

namespace WireShapes.Table

variable {κ α : Type}

@[simp]
theorem keys_mapValues (f : α → α) (t : Table κ α) : (t.mapValues f).keys = t.keys := by
  simp [keys, mapValues, Function.comp_def]

@[simp]
theorem length_keys (t : Table κ α) : t.keys.length = t.size := by
  simp [keys, size]

variable [DecidableEq κ]

/-- Where no key occurs twice, an entry is one that its key finds. -/
theorem lookup_eq_some_iff_mem {entries : List (κ × α)} (h : (entries.map Prod.fst).Nodup)
    {key : κ} {value : α} : entries.lookup key = some value ↔ (key, value) ∈ entries := by
  induction entries with
  | nil => simp
  | cons entry rest ih =>
    obtain ⟨hfresh, hrest⟩ := List.nodup_cons.mp h
    rw [List.lookup_cons, List.mem_cons]
    by_cases hkey : key = entry.1
    · subst hkey
      have hmem : (entry.1, value) ∉ rest := by
        intro hmem
        exact hfresh (List.mem_map.mpr ⟨_, hmem, rfl⟩)
      simp [hmem, Prod.ext_iff, eq_comm]
    · have hne : (key == entry.1) = false := beq_eq_false_iff_ne.mpr hkey
      simp [hne, Prod.ext_iff, hkey, ih hrest]

/-- An entry of a table into which one was put is the new one or was there. -/
theorem mem_put {key : κ} {value : α} {entries : List (κ × α)} {entry : κ × α}
    (h : entry ∈ put key value entries) : entry = (key, value) ∨ entry ∈ entries := by
  induction entries with
  | nil => exact .inl (List.mem_singleton.mp h)
  | cons first rest ih =>
    obtain ⟨k, v⟩ := first
    unfold put at h
    split at h
    · rcases List.mem_cons.mp h with rfl | h
      · exact .inl rfl
      · exact .inr (List.mem_cons_of_mem _ h)
    · rcases List.mem_cons.mp h with rfl | h
      · exact .inr List.mem_cons_self
      · exact (ih h).imp_right (List.mem_cons_of_mem _)

theorem get?_isSome_iff {t : Table κ α} {key : κ} : (t.get? key).isSome ↔ key ∈ t.keys := by
  obtain ⟨entries⟩ := t
  unfold get? keys
  induction entries with
  | nil => simp
  | cons entry rest ih =>
    rw [List.lookup_cons, List.map_cons, List.mem_cons, ← ih]
    by_cases h : key = entry.1
    · simp [h]
    · have hne : (key == entry.1) = false := beq_eq_false_iff_ne.mpr h
      simp [hne, h]

/-- Values that are changed in their places, each by its key. -/
theorem lookup_map_entries {β : Type} (f : κ → α → β) (entries : List (κ × α)) (key : κ) :
    (entries.map fun entry ↦ (entry.1, f entry.1 entry.2)).lookup key =
      (entries.lookup key).map (f key) := by
  induction entries with
  | nil => rfl
  | cons entry rest ih =>
    rw [List.map_cons, List.lookup_cons, List.lookup_cons, ih]
    by_cases h : key = entry.1
    · subst h
      simp
    · simp [beq_eq_false_iff_ne.mpr h]

@[simp]
theorem get?_mapValues (f : α → α) (t : Table κ α) (key : κ) :
    (t.mapValues f).get? key = (t.get? key).map f :=
  lookup_map_entries (fun _ ↦ f) t.entries key

theorem get?_update (t : Table κ α) (key : κ) (f : α → α) (other : κ) :
    (t.update key f).get? other = if other = key then (t.get? other).map f else t.get? other := by
  refine (lookup_map_entries (fun k v ↦ if k = key then f v else v) t.entries other).trans ?_
  by_cases h : other = key
  · simp [h, get?]
  · simp [h, get?]

/-! ## Entries one after the other -/

@[simp]
theorem lookup_put (key : κ) (value : α) (entries : List (κ × α)) (other : κ) :
    (put key value entries).lookup other =
      if other = key then some value else entries.lookup other := by
  induction entries with
  | nil => by_cases h : other = key <;> simp [put, List.lookup_cons, h, beq_eq_false_iff_ne.mpr]
  | cons entry rest ih =>
    obtain ⟨first, old⟩ := entry
    unfold put
    by_cases hfirst : first = key <;> by_cases hother : other = key <;>
      by_cases hsame : other = first <;>
      simp_all [List.lookup_cons, beq_eq_false_iff_ne.mpr]

@[simp]
theorem get?_insert (t : Table κ α) (key : κ) (value : α) (other : κ) :
    (t.insert key value).get? other = if other = key then some value else t.get? other :=
  lookup_put key value t.entries other

/-- Each key once, in the order in which keys first came, with its latest value. -/
def latest (entries : List (κ × α)) : List (κ × α) :=
  (entries.map Prod.fst).eraseDups.filterMap fun key ↦
    (entries.reverse.lookup key).map fun value ↦ (key, value)

theorem nodup_eraseDups (keys : List κ) : keys.eraseDups.Nodup := by
  induction hlength : keys.length using Nat.strongRecOn generalizing keys with
  | ind length ih =>
    cases keys with
    | nil => simp
    | cons key rest =>
      rw [List.eraseDups_cons]
      refine List.nodup_cons.mpr ⟨?_, ih _ ?_ _ rfl⟩
      · simp [List.mem_eraseDups]
      · have hle := List.length_filter_le (fun other ↦ !other == key) rest
        simp only [List.length_cons] at hlength
        omega

/-- What is found in a list that is made of keys. -/
theorem lookup_filterMap (keys : List κ) (find : κ → Option α) (key : κ) :
    (keys.filterMap fun k ↦ (find k).map fun v ↦ (k, v)).lookup key =
      if key ∈ keys then find key else none := by
  induction keys with
  | nil => rfl
  | cons first rest ih =>
    cases hfind : find first with
    | none =>
      rw [List.filterMap_cons_none (by rw [hfind, Option.map_none]), ih]
      by_cases hfirst : key = first <;> simp [hfirst, hfind]
    | some value =>
      rw [List.filterMap_cons_some (by rw [hfind, Option.map_some]), List.lookup_cons, ih]
      by_cases hfirst : key = first
      · simp [hfirst, hfind]
      · simp [hfirst, beq_eq_false_iff_ne.mpr hfirst]

/-- Putting an entry into a list that is made of keys. -/
theorem put_filterMap {keys : List κ} (hnodup : keys.Nodup) {find : κ → Option α}
    (hfound : ∀ key ∈ keys, (find key).isSome) (key : κ) (value : α) :
    put key value (keys.filterMap fun k ↦ (find k).map fun v ↦ (k, v)) =
      (if key ∈ keys then keys else keys ++ [key]).filterMap fun k ↦
        (if k = key then some value else find k).map fun v ↦ (k, v) := by
  induction keys with
  | nil => simp [put]
  | cons first rest ih =>
    obtain ⟨hfresh, hrest⟩ := List.nodup_cons.mp hnodup
    obtain ⟨old, hold⟩ := Option.isSome_iff_exists.mp (hfound first List.mem_cons_self)
    have hih := ih hrest fun k hk ↦ hfound k (List.mem_cons_of_mem _ hk)
    rw [List.filterMap_cons_some (b := (first, old)) (by simp [hold]), put]
    by_cases hfirst : first = key
    · subst hfirst
      have hsame : rest.filterMap (fun k ↦ (find k).map fun v ↦ (k, v)) =
          rest.filterMap fun k ↦ (if k = first then some value else find k).map fun v ↦ (k, v) := by
        apply List.filterMap_congr
        intro k hk
        have hne : k ≠ first := by
          intro heq
          exact hfresh (heq ▸ hk)
        rw [if_neg hne]
      rw [if_pos rfl, if_pos List.mem_cons_self, hsame,
        List.filterMap_cons_some (b := (first, value)) (by simp)]
    · have hne : key ≠ first := by
        intro heq
        exact hfirst heq.symm
      rw [if_neg hfirst, hih]
      by_cases hkey : key ∈ rest
      · rw [if_pos hkey, if_pos (List.mem_cons_of_mem _ hkey),
          List.filterMap_cons_some (b := (first, old)) (by simp [hfirst, hold])]
      · rw [if_neg hkey, if_neg (by simp [hkey, hne]), List.cons_append,
          List.filterMap_cons_some (b := (first, old)) (by simp [hfirst, hold])]

theorem latest_append (entries : List (κ × α)) (key : κ) (value : α) :
    latest (entries ++ [(key, value)]) = put key value (latest entries) := by
  have hfound : ∀ k ∈ (entries.map Prod.fst).eraseDups, (entries.reverse.lookup k).isSome := by
    intro k hk
    obtain ⟨entry, hentry, rfl⟩ := List.mem_map.mp (List.mem_eraseDups.mp hk)
    exact get?_isSome_iff (t := ⟨entries.reverse⟩) |>.mpr
      (List.mem_map_of_mem (List.mem_reverse.mpr hentry))
  unfold latest
  rw [put_filterMap (nodup_eraseDups _) hfound, List.map_append, List.eraseDups_append]
  have hkeys : (entries.map Prod.fst).eraseDups ++
      (([(key, value)].map Prod.fst).removeAll (entries.map Prod.fst)).eraseDups =
      if key ∈ (entries.map Prod.fst).eraseDups then (entries.map Prod.fst).eraseDups
      else (entries.map Prod.fst).eraseDups ++ [key] := by
    by_cases h : key ∈ entries.map Prod.fst <;> simp_all [List.removeAll, List.eraseDups_cons]
  rw [hkeys]
  apply List.filterMap_congr
  intro k _
  rw [List.reverse_append, List.reverse_singleton, List.singleton_append, List.lookup_cons]
  by_cases h : k = key
  · simp [h]
  · simp [h, beq_eq_false_iff_ne.mpr h]

/-- Entries that are put into a table one after the other leave the latest of each key. -/
theorem foldl_put (entries : List (κ × α)) :
    entries.foldl (fun table entry ↦ put entry.1 entry.2 table) [] = latest entries := by
  induction entries using List.reverseRecOn with
  | nil => rfl
  | append_singleton entries entry ih => rw [List.foldl_append, ih, latest_append]; rfl

/-- A key finds its latest value. -/
theorem lookup_latest (entries : List (κ × α)) (key : κ) :
    (latest entries).lookup key = entries.reverse.lookup key := by
  unfold latest
  rw [lookup_filterMap]
  split
  next => rfl
  next hnone =>
    have hkey : key ∉ (⟨entries.reverse⟩ : Table κ α).keys := by simpa [keys] using hnone
    exact (Option.not_isSome_iff_eq_none.mp (mt get?_isSome_iff.mp hkey)).symm

/-- No key is there twice. -/
theorem nodup_latest (entries : List (κ × α)) : ((latest entries).map Prod.fst).Nodup := by
  unfold latest
  rw [List.map_filterMap]
  refine (nodup_eraseDups (entries.map Prod.fst)).filterMap fun key other k hkey hother ↦ ?_
  have hfirst {key : κ} (h : k ∈ ((entries.reverse.lookup key).map fun value ↦
      (key, value)).map Prod.fst) : k = key := by
    obtain ⟨entry, hentry, rfl⟩ := Option.map_eq_some_iff.mp h
    obtain ⟨value, -, rfl⟩ := Option.map_eq_some_iff.mp hentry
    rfl
  exact (hfirst hkey).symm.trans (hfirst hother)

/-! ## The first of a key -/

section First

variable {key : α → κ} {items : List α}

/-- An item is what its key finds just if no earlier item has the key. -/
theorem find?_key_eq_some_iff (hnodup : items.Nodup) {before after : List α} {a : α}
    (hitems : items = before ++ a :: after) :
    items.find? (fun x ↦ key x = key a) = some a ↔ ∀ x ∈ before, key x ≠ key a := by
  have hfresh : a ∉ before := by
    rw [hitems] at hnodup
    exact fun hmem ↦ List.disjoint_of_nodup_append hnodup hmem List.mem_cons_self
  have hself : (a :: after).find? (fun x ↦ key x = key a) = some a := by simp
  rw [hitems, List.find?_append, hself]
  cases hfind : before.find? fun x ↦ key x = key a with
  | none => simpa using hfind
  | some earlier =>
    have hmem := List.mem_of_find?_eq_some hfind
    have hkey : key earlier = key a := by simpa using List.find?_some hfind
    refine ⟨fun h ↦ ?_, fun h ↦ absurd hkey (h earlier hmem)⟩
    obtain rfl : earlier = a := by simpa using h
    exact absurd hmem hfresh

/-- Every item is what its key finds just if no two have the same key. -/
theorem forall_find?_key_iff (hnodup : items.Nodup) :
    (∀ a ∈ items, items.find? (fun x ↦ key x = key a) = some a) ↔ (items.map key).Nodup := by
  rw [List.nodup_map_iff_inj_on hnodup]
  constructor
  · intro h a ha other hother hkey
    have hfound := h a ha
    rw [hkey, h other hother] at hfound
    exact (Option.some.inj hfound).symm
  · intro hinj a ha
    obtain ⟨found, hfound⟩ := Option.isSome_iff_exists.mp
      (List.find?_isSome.mpr ⟨a, ha, by simp⟩ : (items.find? fun x ↦ key x = key a).isSome)
    have hkey : key found = key a := by simpa using List.find?_some hfound
    rw [hfound, hinj found (List.mem_of_find?_eq_some hfound) a ha hkey]

end First

end WireShapes.Table
