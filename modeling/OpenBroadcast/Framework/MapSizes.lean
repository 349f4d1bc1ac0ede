import Mathlib.Data.Finset.Card
import OpenBroadcast.Framework.Collections

namespace OpenBroadcast.HashMap

variable {α β : Type} [DecidableEq α] {m : HashMap α β} {a : α} {b : β}

theorem keys_insert (m : HashMap α β) (a : α) (b : β) : (m.insert a b).keys = insert a m.keys := by
  ext x
  rw [Finset.mem_insert,Finmap.mem_keys,Finmap.mem_keys,Finmap.mem_insert]

theorem keys_insert_of_mem (h : a ∈ m) (b : β) : (m.insert a b).keys = m.keys := by
  rw [keys_insert,Finset.insert_eq_of_mem (Finmap.mem_keys.mpr h)]

theorem card_insert_of_notMem (h : a ∉ m) (b : β) : (m.insert a b).keys.card = m.keys.card+1 := by
  rw [keys_insert]
  exact Finset.card_insert_of_notMem (fun hkey => h (Finmap.mem_keys.mp hkey))

theorem card_insert_of_mem (h : a ∈ m) (b : β) : (m.insert a b).keys.card = m.keys.card := by
  rw [keys_insert_of_mem h]

theorem card_erase_of_mem (h : a ∈ m) : (m.erase a).keys.card+1 = m.keys.card := by
  have hkey := Finmap.mem_keys.mpr h
  rw [Finmap.keys_erase,Finset.card_erase_of_mem hkey]
  have hpos := Finset.card_pos.mpr ⟨a,hkey⟩
  omega

theorem keys_retain (m : HashMap α β) (f : α → β → Bool) :
    (m.retain f).keys = m.keys.filter (fun a => (m.lookup a).any (f a) = true) := by
  ext a
  rw [Finset.mem_filter,Finmap.mem_keys,Finmap.mem_keys,← Finmap.lookup_isSome,
    ← Finmap.lookup_isSome,lookup_retain]
  cases m.lookup a with
  | none => simp
  | some b => cases hf : f a b <;> simp [Option.filter,hf]

/-- What is retained and what is not make up the map. -/
theorem card_retain (m : HashMap α β) (f : α → β → Bool) :
    (m.retain f).keys.card+(m.keys.filter (fun a => ¬ (m.lookup a).any (f a) = true)).card =
      m.keys.card := by
  rw [keys_retain]
  exact Finset.card_filter_add_card_filter_not _

end OpenBroadcast.HashMap
