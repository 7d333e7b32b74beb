import Mathlib.Data.List.Basic

/-!
# Ordered association lists

A finite map written as a list of key–value pairs kept in ascending key
order: the shape of a `BTreeMap`, whose iteration order is its key order.

`insert` overwrites a present key IN PLACE and otherwise places the pair
before the first larger key; `erase` drops every pair carrying the key.
A `HashMap`, whose order is no one's business, is written by `put`, which
drops the old pair and puts the new one first.
Both choices are made so that the lookup laws below need no sortedness
premise at all: the laws hold of every list, canonical or not, and the
order matters only to what a listing of the keys shows.

The module names nothing of the system that uses it. Its laws are the
ones a store of named children needs: what a lookup sees after an
insertion or an erasure, and what pairs an insertion can bring in.
-/

namespace OspabOs.KeyMap

variable {κ ν : Type} [DecidableEq κ]

/-- The value stored under `k`, the first pair carrying it. -/
def get? (k : κ) : List (κ × ν) → Option ν
  | [] => none
  | (k', v) :: rest => if k = k' then some v else get? k rest

/-- Drop every pair carrying `k`. -/
def erase (k : κ) : List (κ × ν) → List (κ × ν)
  | [] => []
  | (k', v) :: rest => if k = k' then erase k rest else (k', v) :: erase k rest

/-- Apply `g` to the value under `k` IN PLACE, the first pair carrying it:
what writing through `get_mut(k)` does. No pair moves. -/
def modify (k : κ) (g : ν → ν) : List (κ × ν) → List (κ × ν)
  | [] => []
  | (k', v) :: rest => if k = k' then (k', g v) :: rest else (k', v) :: modify k g rest

/-- The keys, in the order the list carries them. -/
def keys (m : List (κ × ν)) : List κ := m.map Prod.fst

@[simp] theorem get?_nil (k : κ) : get? k ([] : List (κ × ν)) = none := rfl

theorem get?_cons (k k' : κ) (v : ν) (rest : List (κ × ν)) :
    get? k ((k', v) :: rest) = if k = k' then some v else get? k rest := rfl

@[simp] theorem get?_erase_self (k : κ) (m : List (κ × ν)) : get? k (erase k m) = none := by
  induction m with
  | nil => rfl
  | cons head rest ih =>
    obtain ⟨k', v⟩ := head
    by_cases same : k = k'
    · simpa [erase, same] using ih
    · simp [erase, same, get?, ih]

theorem get?_erase_of_ne {k j : κ} (m : List (κ × ν)) (ne : j ≠ k) :
    get? j (erase k m) = get? j m := by
  induction m with
  | nil => rfl
  | cons head rest ih =>
    obtain ⟨k', v⟩ := head
    by_cases same : k = k'
    · subst same
      simp [erase, get?, ne, ih]
    · simp [erase, same, get?, ih]

/-- An erasure hides one key and nothing else. -/
theorem get?_erase (k j : κ) (m : List (κ × ν)) :
    get? j (erase k m) = if j = k then none else get? j m := by
  by_cases same : j = k
  · subst same
    simp
  · rw [if_neg same, get?_erase_of_ne m same]

theorem get?_modify (k j : κ) (g : ν → ν) (m : List (κ × ν)) :
    get? j (modify k g m) = if j = k then (get? j m).map g else get? j m := by
  induction m with
  | nil => simp [modify]
  | cons head rest ih =>
    obtain ⟨k', v⟩ := head
    by_cases same : k = k'
    · subst same
      by_cases hj : j = k <;> simp [modify, get?, hj]
    · simp only [modify, if_neg same, get?_cons, ih]
      by_cases hj : j = k
      · subst hj
        simp [same]
      · simp [hj]

/-- A modification that leaves the value it reaches alone changes nothing. -/
theorem modify_eq_self {k : κ} {g : ν → ν} {m : List (κ × ν)}
    (fixed : ∀ v, get? k m = some v → g v = v) : modify k g m = m := by
  induction m with
  | nil => rfl
  | cons head rest ih =>
    obtain ⟨k', v⟩ := head
    by_cases same : k = k'
    · subst same
      simp [modify, fixed v (by simp [get?])]
    · simp only [modify, if_neg same]
      rw [ih (fun w found => fixed w (by simpa [get?, same] using found))]

/-- What a lookup finds is a pair of the list. -/
theorem mem_of_get?_eq_some {k : κ} {v : ν} {m : List (κ × ν)} (found : get? k m = some v) :
    (k, v) ∈ m := by
  induction m with
  | nil => simp at found
  | cons head rest ih =>
    obtain ⟨k', v'⟩ := head
    by_cases same : k = k'
    · subst same
      have value : v' = v := by simpa [get?] using found
      simp [value]
    · have tail : get? k rest = some v := by simpa [get?, same] using found
      exact List.mem_cons_of_mem _ (ih tail)

/-- A pair of a modified list is an old pair, or the image of the old
pair under the modified key. -/
theorem mem_modify {k : κ} {g : ν → ν} {m : List (κ × ν)} {e : κ × ν} (mem : e ∈ modify k g m) :
    e ∈ m ∨ ∃ v, (k, v) ∈ m ∧ e = (k, g v) := by
  induction m with
  | nil => simp [modify] at mem
  | cons head rest ih =>
    obtain ⟨k', v⟩ := head
    by_cases same : k = k'
    · subst same
      rw [modify, if_pos rfl, List.mem_cons] at mem
      rcases mem with rfl | later
      · exact .inr ⟨v, List.mem_cons_self, rfl⟩
      · exact .inl (List.mem_cons_of_mem _ later)
    · simp only [modify, if_neg same, List.mem_cons] at mem
      rcases mem with rfl | later
      · exact .inl List.mem_cons_self
      · rcases ih later with old | ⟨w, wMem, rfl⟩
        · exact .inl (List.mem_cons_of_mem _ old)
        · exact .inr ⟨w, List.mem_cons_of_mem _ wMem, rfl⟩

/-- An erasure brings in no pair. -/
theorem mem_of_mem_erase {k : κ} {m : List (κ × ν)} {e : κ × ν} (mem : e ∈ erase k m) :
    e ∈ m := by
  induction m with
  | nil => simp [erase] at mem
  | cons head rest ih =>
    obtain ⟨k', v⟩ := head
    by_cases same : k = k'
    · simp only [erase, if_pos same] at mem
      exact List.mem_cons_of_mem _ (ih mem)
    · simp only [erase, if_neg same, List.mem_cons] at mem
      rcases mem with first | later
      · exact first ▸ List.mem_cons_self
      · exact List.mem_cons_of_mem _ (ih later)

/-- Store `v` under `k` in a map that keeps no order on its keys (a
`HashMap`): the new pair goes first and the old one is dropped. -/
def put (k : κ) (v : ν) (m : List (κ × ν)) : List (κ × ν) := (k, v) :: erase k m

/-- A `put` changes what one key sees and nothing else. -/
theorem get?_put (k j : κ) (v : ν) (m : List (κ × ν)) :
    get? j (put k v m) = if j = k then some v else get? j m := by
  rw [put, get?_cons]
  by_cases same : j = k
  · rw [if_pos same, if_pos same]
  · rw [if_neg same, if_neg same, get?_erase_of_ne m same]

/-- A modification moves no key. -/
theorem keys_modify (k : κ) (g : ν → ν) (m : List (κ × ν)) : keys (modify k g m) = keys m := by
  induction m with
  | nil => rfl
  | cons head rest ih =>
    obtain ⟨k', v⟩ := head
    by_cases same : k = k'
    · simp [modify, same, keys]
    · simp only [modify, if_neg same, keys, List.map_cons] at ih ⊢
      rw [ih]

theorem not_mem_keys_erase (k : κ) (m : List (κ × ν)) : k ∉ keys (erase k m) := by
  induction m with
  | nil => simp [erase, keys]
  | cons head rest ih =>
    obtain ⟨k', v⟩ := head
    by_cases same : k = k'
    · simpa [erase, same] using ih
    · simp only [erase, if_neg same, keys, List.map_cons, List.mem_cons] at ih ⊢
      rintro (back | later)
      · exact same back
      · exact ih later

theorem keys_erase_sublist (k : κ) (m : List (κ × ν)) : (keys (erase k m)).Sublist (keys m) := by
  induction m with
  | nil => exact List.Sublist.slnil
  | cons head rest ih =>
    obtain ⟨k', v⟩ := head
    by_cases same : k = k'
    · simp only [erase, if_pos same, keys, List.map_cons] at ih ⊢
      exact ih.cons k'
    · simp only [erase, if_neg same, keys, List.map_cons] at ih ⊢
      exact ih.cons_cons k'

/-- A `put` keeps the keys distinct. -/
theorem nodup_keys_put {m : List (κ × ν)} (nodup : (keys m).Nodup) (k : κ) (v : ν) :
    (keys (put k v m)).Nodup :=
  List.nodup_cons.mpr ⟨not_mem_keys_erase k m, nodup.sublist (keys_erase_sublist k m)⟩

theorem isSome_get?_iff (k : κ) (m : List (κ × ν)) : (get? k m).isSome ↔ k ∈ keys m := by
  induction m with
  | nil => simp [keys]
  | cons head rest ih =>
    obtain ⟨k', v⟩ := head
    by_cases same : k = k'
    · simp [get?, same, keys]
    · simp only [get?_cons, keys, List.map_cons, List.mem_cons, same, false_or] at ih ⊢
      exact ih

/-- With no key twice, a lookup finds exactly the pairs of the list. -/
theorem get?_eq_some_iff_mem {m : List (κ × ν)} (nodup : (keys m).Nodup) {k : κ} {v : ν} :
    get? k m = some v ↔ (k, v) ∈ m := by
  refine ⟨mem_of_get?_eq_some, fun mem => ?_⟩
  induction m with
  | nil => cases mem
  | cons head rest ih =>
    obtain ⟨k', v'⟩ := head
    simp only [keys, List.map_cons, List.nodup_cons] at nodup
    rcases List.mem_cons.mp mem with same | later
    · obtain ⟨rfl, rfl⟩ := Prod.mk.inj same
      simp [get?]
    · have other : k ≠ k' := fun same => nodup.1 (same ▸ List.mem_map_of_mem later)
      rw [get?_cons, if_neg other]
      exact ih nodup.2 later

/-- `put`s of pairs none of which carries `k` leave what `k` sees. -/
theorem get?_foldl_put_of_absent {pairs : List (κ × ν)} {k : κ} (absent : ∀ p ∈ pairs, p.1 ≠ k)
    (m : List (κ × ν)) : get? k (pairs.foldl (fun m p => put p.1 p.2 m) m) = get? k m := by
  induction pairs generalizing m with
  | nil => rfl
  | cons p rest ih =>
    rw [List.foldl_cons, ih (fun q mem => absent q (List.mem_cons_of_mem p mem)), get?_put,
      if_neg (Ne.symm (absent p List.mem_cons_self))]

/-- After `put`s of pairs, `k` sees the value of the pairs carrying it,
when there are some and they all agree. -/
theorem get?_foldl_put_of_agree {pairs : List (κ × ν)} {k : κ} {v : ν}
    (agree : ∀ p ∈ pairs, p.1 = k → p.2 = v) (present : ∃ p ∈ pairs, p.1 = k) (m : List (κ × ν)) :
    get? k (pairs.foldl (fun m p => put p.1 p.2 m) m) = some v := by
  induction pairs generalizing m with
  | nil =>
    obtain ⟨p, mem, -⟩ := present
    cases mem
  | cons p rest ih =>
    rw [List.foldl_cons]
    by_cases later : ∃ q ∈ rest, q.1 = k
    · exact ih (fun q mem => agree q (List.mem_cons_of_mem p mem)) later (put p.1 p.2 m)
    · -- the last pair carrying `k` is `p` itself
      have absent : ∀ q ∈ rest, q.1 ≠ k := fun q mem same => later ⟨q, mem, same⟩
      obtain ⟨q, mem, carries⟩ := present
      have first : p.1 = k := by
        rcases List.mem_cons.mp mem with rfl | inRest
        · exact carries
        · exact absurd carries (absent q inRest)
      rw [get?_foldl_put_of_absent absent, get?_put, if_pos first.symm, agree p List.mem_cons_self first]

/-- `put`s, from the empty map, of exactly the entries of a map with
distinct keys, in any order and any number of times, read as that map. -/
theorem get?_foldl_put_of_mem_iff {m pairs : List (κ × ν)} (nodup : (keys m).Nodup)
    (same : ∀ p, p ∈ pairs ↔ p ∈ m) (k : κ) :
    get? k (pairs.foldl (fun m p => put p.1 p.2 m) []) = get? k m := by
  by_cases present : ∃ v, (k, v) ∈ m
  · obtain ⟨v, mem⟩ := present
    rw [(get?_eq_some_iff_mem nodup).mpr mem]
    apply get?_foldl_put_of_agree
    · -- two entries of `m` under `k` are one
      rintro ⟨k', v'⟩ carried rfl
      have both := ((get?_eq_some_iff_mem nodup).mpr ((same _).mp carried)).symm.trans
        ((get?_eq_some_iff_mem nodup).mpr mem)
      exact Option.some.inj both
    · exact ⟨(k, v), (same _).mpr mem, rfl⟩
  · have absent : ∀ p ∈ pairs, p.1 ≠ k := by
      rintro ⟨k', v'⟩ carried rfl
      exact present ⟨v', (same _).mp carried⟩
    rw [get?_foldl_put_of_absent absent, get?_nil]
    cases found : get? k m with
    | none => rfl
    | some v => exact absurd ⟨v, mem_of_get?_eq_some found⟩ present

section Insert

variable [LT κ] [DecidableLT κ]

/-- Store `v` under `k`: overwrite the pair carrying `k`, or place a new
pair before the first larger key. -/
def insert (k : κ) (v : ν) : List (κ × ν) → List (κ × ν)
  | [] => [(k, v)]
  | (k', v') :: rest =>
    if k = k' then (k, v) :: rest
    else if k < k' then (k, v) :: (k', v') :: rest
    else (k', v') :: insert k v rest

@[simp] theorem get?_insert_self (k : κ) (v : ν) (m : List (κ × ν)) :
    get? k (insert k v m) = some v := by
  induction m with
  | nil => simp [insert, get?]
  | cons head rest ih =>
    obtain ⟨k', v'⟩ := head
    by_cases same : k = k'
    · simp [insert, same, get?]
    · by_cases less : k < k'
      · simp [insert, same, less, get?]
      · simp [insert, same, less, get?, ih]

theorem get?_insert_of_ne {k j : κ} (v : ν) (m : List (κ × ν)) (ne : j ≠ k) :
    get? j (insert k v m) = get? j m := by
  induction m with
  | nil => simp [insert, get?, ne]
  | cons head rest ih =>
    obtain ⟨k', v'⟩ := head
    by_cases same : k = k'
    · subst same
      simp [insert, get?, ne]
    · by_cases less : k < k'
      · simp [insert, same, less, get?, ne]
      · simp [insert, same, less, get?, ih]

/-- An insertion changes what one key sees and nothing else. -/
theorem get?_insert (k j : κ) (v : ν) (m : List (κ × ν)) :
    get? j (insert k v m) = if j = k then some v else get? j m := by
  by_cases same : j = k
  · subst same
    simp
  · rw [if_neg same, get?_insert_of_ne v m same]

/-- A pair of an inserted list is the inserted pair or an old one. -/
theorem mem_insert {k : κ} {v : ν} {m : List (κ × ν)} {e : κ × ν} (mem : e ∈ insert k v m) :
    e = (k, v) ∨ e ∈ m := by
  induction m with
  | nil => simpa [insert] using mem
  | cons head rest ih =>
    obtain ⟨k', v'⟩ := head
    by_cases same : k = k'
    · simp only [insert, if_pos same, List.mem_cons] at mem
      rcases mem with fresh | old
      · exact .inl fresh
      · exact .inr (List.mem_cons_of_mem _ old)
    · by_cases less : k < k'
      · simpa [insert, same, less] using mem
      · simp only [insert, if_neg same, if_neg less, List.mem_cons] at mem
        rcases mem with first | later
        · exact .inr (first ▸ List.mem_cons_self)
        · rcases ih later with fresh | old
          · exact .inl fresh
          · exact .inr (List.mem_cons_of_mem _ old)

end Insert

end OspabOs.KeyMap
