/-! A map with a bound on its entries that keeps them in the order of their last use. Looking an entry
up is a use of it. In a full map a new key takes the place of the entry whose last use is longest ago. -/
namespace RangeIndex.Query

/-- Entries by their keys, the one used last in front. -/
structure RecentlyUsed (Key Value : Type) where
  capacity : Nat
  entries : List (Key × Value)
  positive : 0 < capacity
  bounded : entries.length ≤ capacity
  distinct : (entries.map Prod.fst).Nodup

namespace RecentlyUsed
variable {Key Value : Type}

def new (capacity : Nat) (positive : 0 < capacity) : RecentlyUsed Key Value where
  capacity
  entries := []
  positive
  bounded := Nat.zero_le _
  distinct := .nil

def size (kept : RecentlyUsed Key Value) : Nat := kept.entries.length

def keys (kept : RecentlyUsed Key Value) : List Key := kept.entries.map Prod.fst

/-- The map with nothing in it. -/
def clear (kept : RecentlyUsed Key Value) : RecentlyUsed Key Value :=
  new kept.capacity kept.positive

theorem length_keys (kept : RecentlyUsed Key Value) : kept.keys.length = kept.size :=
  List.length_map _

variable [DecidableEq Key] {kept : RecentlyUsed Key Value} {key : Key} {value : Value}

/-- The entries of the other keys. -/
def others (kept : RecentlyUsed Key Value) (key : Key) : List (Key × Value) :=
  kept.entries.filter fun entry => entry.1 != key

theorem keys_of_others (kept : RecentlyUsed Key Value) (key : Key) :
    (kept.others key).map Prod.fst = kept.keys.filter (· != key) := by
  rw [keys, List.filter_map]
  rfl

theorem others_of_absent (absent : key ∉ kept.keys) : kept.others key = kept.entries := by
  refine List.filter_eq_self.mpr fun entry member => bne_iff_ne.mpr fun same => absent ?_
  exact same ▸ List.mem_map_of_mem member

theorem others_length_lt (held : key ∈ kept.keys) : (kept.others key).length < kept.size := by
  obtain ⟨entry, member, same⟩ := List.mem_map.mp held
  exact List.length_filter_lt_length_iff_exists.mpr ⟨entry, member, by simp [same]⟩

/-- A key has one value at most. -/
theorem lookup_of_mem (held : (key, value) ∈ kept.entries) :
    kept.entries.lookup key = some value ∧
      (kept.entries.filter fun entry => entry.1 == key) = [(key, value)] := by
  obtain ⟨before, later, split⟩ := List.append_of_mem held
  have distinct := kept.distinct
  rw [split, List.map_append, List.map_cons, List.nodup_append, List.nodup_cons] at distinct
  obtain ⟨-, ⟨unlike, -⟩, apart⟩ := distinct
  have front : ∀ entry ∈ before, entry.1 ≠ key := fun entry member =>
    apart entry.1 (List.mem_map_of_mem member) key (.head _)
  have back : ∀ entry ∈ later, entry.1 ≠ key := fun entry member same =>
    unlike (List.mem_map.mpr ⟨entry, member, same⟩)
  constructor
  · exact List.lookup_eq_some_iff.mpr
      ⟨before, later, split, fun entry member => bne_iff_ne.mpr (front entry member).symm⟩
  · have noneBefore : (before.filter fun entry => entry.1 == key) = [] :=
      List.filter_eq_nil_iff.mpr fun entry member => by simp [front entry member]
    have noneLater : (later.filter fun entry => entry.1 == key) = [] :=
      List.filter_eq_nil_iff.mpr fun entry member => by simp [back entry member]
    rw [split, List.filter_append, noneBefore, List.filter_cons_of_pos (by simp), noneLater,
      List.nil_append]

theorem lookup_eq_some_iff : kept.entries.lookup key = some value ↔ (key, value) ∈ kept.entries := by
  constructor
  · intro found
    obtain ⟨before, later, split, _⟩ := List.lookup_eq_some_iff.mp found
    simp [split]
  · exact fun held => (lookup_of_mem held).1

theorem lookup_eq_none_iff : kept.entries.lookup key = none ↔ key ∉ kept.keys := by
  rw [List.lookup_eq_none_iff, keys, List.mem_map]
  constructor
  · rintro missed ⟨entry, held, rfl⟩
    simpa using missed entry held
  · intro absent entry held
    exact bne_iff_ne.mpr fun same => absent ⟨entry, held, same.symm⟩

section Promotion

/-- The entries with that of a key in front. -/
def fronted (kept : RecentlyUsed Key Value) (key : Key) : List (Key × Value) :=
  (kept.entries.filter fun entry => entry.1 == key) ++ kept.others key

theorem fronted_perm (kept : RecentlyUsed Key Value) (key : Key) :
    (kept.fronted key).Perm kept.entries :=
  List.filter_append_perm (fun entry : Key × Value => entry.1 == key) kept.entries

/-- The map after a use of a key, which changes nothing unless the key has an entry. -/
def promote (kept : RecentlyUsed Key Value) (key : Key) : RecentlyUsed Key Value where
  capacity := kept.capacity
  entries := kept.fronted key
  positive := kept.positive
  bounded := (kept.fronted_perm key).length_eq ▸ kept.bounded
  distinct := ((kept.fronted_perm key).map Prod.fst).nodup_iff.mpr kept.distinct

/-- The value of a key, and the map after this use of the key. -/
def get? (kept : RecentlyUsed Key Value) (key : Key) : Option Value × RecentlyUsed Key Value :=
  (kept.entries.lookup key, kept.promote key)

/-- Looking up a key that has an entry moves the entry in front of the others. -/
theorem get_promotes (held : (key, value) ∈ kept.entries) :
    (kept.get? key).1 = some value ∧
      (kept.get? key).2.entries = (key, value) :: kept.others key := by
  obtain ⟨found, own⟩ := lookup_of_mem held
  have moved : kept.fronted key = (key, value) :: kept.others key := by
    rw [fronted, own, List.singleton_append]
  exact ⟨found, moved⟩

theorem get_absent (absent : key ∉ kept.keys) : kept.get? key = (none, kept) := by
  have own : (kept.entries.filter fun entry => entry.1 == key) = [] :=
    List.filter_eq_nil_iff.mpr fun entry member same =>
      absent (eq_of_beq same ▸ List.mem_map_of_mem member)
  have same : kept.fronted key = kept.entries := by
    rw [fronted, own, others_of_absent absent, List.nil_append]
  have unmoved : kept.promote key = kept := by
    cases kept
    simp only [promote, same]
  rw [get?, lookup_eq_none_iff.mpr absent, unmoved]

theorem mem_promote {entry : Key × Value} :
    entry ∈ (kept.promote key).entries ↔ entry ∈ kept.entries :=
  (kept.fronted_perm key).mem_iff

theorem keys_promote (held : key ∈ kept.keys) :
    (kept.promote key).keys = key :: kept.keys.filter (· != key) := by
  obtain ⟨⟨own, value⟩, member, rfl⟩ := List.mem_map.mp held
  rw [keys, show (kept.promote own).entries = _ from (get_promotes member).2, List.map_cons,
    keys_of_others]

end Promotion

section Insertion

/-- What stays when a key gets a value. A full map without the key gives up its last entry. -/
def staying (kept : RecentlyUsed Key Value) (key : Key) : List (Key × Value) :=
  if key ∉ kept.keys ∧ kept.size = kept.capacity then kept.entries.dropLast else kept.others key

theorem mem_staying {entry : Key × Value} (stays : entry ∈ kept.staying key) :
    entry ∈ kept.entries ∧ entry.1 ≠ key := by
  unfold staying at stays
  split at stays
  · next full =>
    have member := (List.dropLast_sublist _).subset stays
    exact ⟨member, fun same => full.1 (same ▸ List.mem_map_of_mem member)⟩
  · simpa using List.mem_filter.mp stays

theorem staying_sublist (kept : RecentlyUsed Key Value) (key : Key) :
    (kept.staying key).Sublist kept.entries := by
  unfold staying
  split
  · exact List.dropLast_sublist _
  · exact List.filter_sublist

theorem staying_length_lt (kept : RecentlyUsed Key Value) (key : Key) :
    (kept.staying key).length < kept.capacity := by
  have positive := kept.positive
  have bounded : kept.size ≤ kept.capacity := kept.bounded
  unfold staying
  split
  · next full =>
    have length : kept.entries.dropLast.length = kept.size - 1 := List.length_dropLast
    omega
  · next room =>
    by_cases held : key ∈ kept.keys
    · exact Nat.lt_of_lt_of_le (others_length_lt held) bounded
    · rw [others_of_absent held]
      exact Nat.lt_of_le_of_ne bounded fun full => room ⟨held, full⟩

/-- The map in which a key has a value, whose entry is now the one used last. -/
def put (kept : RecentlyUsed Key Value) (key : Key) (value : Value) : RecentlyUsed Key Value where
  capacity := kept.capacity
  entries := (key, value) :: kept.staying key
  positive := kept.positive
  bounded := kept.staying_length_lt key
  distinct := by
    rw [List.map_cons, List.nodup_cons]
    refine ⟨fun again => ?_, ((kept.staying_sublist key).map Prod.fst).nodup kept.distinct⟩
    obtain ⟨entry, stays, same⟩ := List.mem_map.mp again
    exact (mem_staying stays).2 same

/-- In a full map a new key takes the place of the entry whose last use is longest ago. -/
theorem put_evicts_least_recent (absent : key ∉ kept.keys) (full : kept.size = kept.capacity)
    (value : Value) : (kept.put key value).entries = (key, value) :: kept.entries.dropLast :=
  congrArg _ (if_pos ⟨absent, full⟩)

/-- Where there is room, or the key has an entry already, every other entry stays. -/
theorem put_keeps_others (room : key ∈ kept.keys ∨ kept.size < kept.capacity) (value : Value) :
    (kept.put key value).entries = (key, value) :: kept.others key := by
  refine congrArg _ (if_neg ?_)
  rintro ⟨absent, full⟩
  rcases room with held | room
  · exact absent held
  · exact Nat.ne_of_lt room full

theorem mem_put {entry : Key × Value} (held : entry ∈ (kept.put key value).entries) :
    entry = (key, value) ∨ entry ∈ kept.entries ∧ entry.1 ≠ key := by
  rcases List.mem_cons.mp held with own | stays
  · exact .inl own
  · exact .inr (mem_staying stays)

/-- The keys in the order of their last use, as many as there is room for. -/
theorem keys_put (kept : RecentlyUsed Key Value) (key : Key) (value : Value) :
    (kept.put key value).keys = (key :: kept.keys.filter (· != key)).take kept.capacity := by
  by_cases full : key ∉ kept.keys ∧ kept.size = kept.capacity
  · have length : kept.keys.length = kept.capacity := kept.length_keys.trans full.2
    have all : kept.keys.filter (· != key) = kept.keys := by
      rw [← keys_of_others, others_of_absent full.1, keys]
    obtain ⟨count, room⟩ := Nat.exists_eq_succ_of_ne_zero (Nat.ne_of_gt kept.positive)
    rw [keys, put_evicts_least_recent full.1 full.2, List.map_cons, List.map_dropLast, all, room,
      List.take_succ_cons, List.dropLast_eq_take, ← keys, length, room, Nat.succ_sub_one]
  · have room : key ∈ kept.keys ∨ kept.size < kept.capacity := by
      by_cases held : key ∈ kept.keys
      · exact .inl held
      · exact .inr (Nat.lt_of_le_of_ne kept.bounded fun same => full ⟨held, same⟩)
    have whole : (kept.put key value).keys = key :: kept.keys.filter (· != key) := by
      rw [keys, put_keeps_others room, List.map_cons, keys_of_others]
    have bounded : (kept.put key value).keys.length ≤ kept.capacity :=
      (kept.put key value).length_keys ▸ (kept.put key value).bounded
    rw [whole] at bounded
    rw [whole, List.take_of_length_le bounded]

end Insertion

end RecentlyUsed

end RangeIndex.Query
