import Mathlib.Data.String.Basic
import OpenBroadcast.Framework.Run
import OpenBroadcast.Moderation.Manager

namespace OpenBroadcast.Moderation

section RoundTrip

theorem lookup_importBlocked_of_notMem (entries : List BlockEntry) (b : BlockedPeers) (id : String)
    (h : ∀ e ∈ entries, e.peerId ≠ id) :
    (entries.foldl BlockedPeers.insert b).entries.lookup id = b.entries.lookup id := by
  induction entries generalizing b with
  | nil => rfl
  | cons e entries ih =>
    rw [List.foldl_cons,ih _ (fun e' he' => h e' (List.mem_cons_of_mem _ he'))]
    exact Finmap.lookup_insert_of_ne _ (h e List.mem_cons_self).symm

theorem lookup_importBlocked_of_mem (entries : List BlockEntry) (b : BlockedPeers) {e : BlockEntry}
    (h : e ∈ entries) (hnodup : (entries.map BlockEntry.peerId).Nodup) :
    (entries.foldl BlockedPeers.insert b).entries.lookup e.peerId = some e := by
  induction entries generalizing b with
  | nil => cases h
  | cons x entries ih =>
    obtain ⟨hx,hrest⟩ := List.nodup_cons.mp hnodup
    rw [List.foldl_cons]
    rcases List.mem_cons.mp h with rfl | h
    · rw [lookup_importBlocked_of_notMem]
      · exact Finmap.lookup_insert _
      · intro e' he' heq
        exact hx (heq ▸ List.mem_map_of_mem he')
    · exact ih _ h hrest

theorem mem_importWhitelist (peers : List String) (wl : Finset String) (p : String) :
    p ∈ peers.foldl (fun wl p => insert p wl) wl ↔ p ∈ peers ∨ p ∈ wl := by
  induction peers generalizing wl with
  | nil => simp
  | cons x peers ih =>
    rw [List.foldl_cons,ih,Finset.mem_insert,List.mem_cons]
    tauto

theorem values_ids (b : BlockedPeers) (order : HashOrder Unit String) :
    (b.values order).map BlockEntry.peerId = order.order () b.entries.keys := by
  rw [← order.iter_keys]
  unfold BlockedPeers.values
  rw [List.map_map]
  apply List.map_congr_left
  intro e he
  exact b.keyed e.1 e.2 ((order.mem_iter () _ e).mp he)

/-- What is exported is read back. -/
theorem importList_exportList (l : Lists) (order : HashOrder Unit String) (now : Nat) :
    Lists.empty.importList (l.exportList order now) = l := by
  apply Lists.ext
  · apply BlockedPeers.ext
    apply Finmap.ext_lookup
    intro id
    have hnodup : ((l.blockedPeers.values order).map BlockEntry.peerId).Nodup := by
      rw [values_ids]
      exact order.nodup _ _
    show ((l.blockedPeers.values order).foldl BlockedPeers.insert .empty).entries.lookup id =
      l.blockedPeers.entries.lookup id
    cases h : l.blockedPeers.entries.lookup id with
    | none =>
      rw [lookup_importBlocked_of_notMem]
      · exact Finmap.lookup_empty id
      · intro e he heq
        have hid := List.mem_map_of_mem (f := BlockEntry.peerId) he
        rw [values_ids,order.mem_order,Finmap.mem_keys,heq,← Finmap.lookup_isSome,h] at hid
        cases hid
    | some e =>
      have hkey := l.blockedPeers.keyed id e h
      have hmem : e ∈ l.blockedPeers.values order :=
        List.mem_map.mpr ⟨(id,e),(order.mem_iter () _ _).mpr h,rfl⟩
      rw [← hkey]
      exact lookup_importBlocked_of_mem _ _ hmem hnodup
  · ext p
    show p ∈ (order.order () l.whitelist).foldl (fun wl p => insert p wl) ∅ ↔ p ∈ l.whitelist
    rw [mem_importWhitelist,order.mem_order]
    simp
  · rfl

end RoundTrip

namespace ModerationManager

/-- The file, if it is read, gives what is in memory. -/
def Persisted (s : ModerationManager) : Prop := saved s.file = s.lists

/-- The call is sure to save a copy that it has not made yet. -/
def willExport : Progress → Bool
  | .exportList => true
  | .mutate (.blockPeer _ _ _) => true
  | .mutate (.whitelistPeer _) => true
  | .mutate (.flagStream _ _ _ _ _) => true
  | _ => false

/-- Some call is sure to save what is in memory: it has still to make its copy, or has made it and
nothing has changed since. -/
def Backed (lists : Lists) (calls : List Progress) : Prop :=
  ∃ p ∈ calls, willExport p = true ∨ ∃ list, p = .write list ∧ saved (some list) = lists

/-- An import changes nothing in memory, or while it does, a call is sure to save a copy later. A
copy is written while it is what is in memory, or while another call is sure to write that. -/
def LosesNothing (s : ModerationManager) : ModerationEvent → Prop
  | .proceed k _ _ => ∀ p, s.calls[k]? = some p → match p with
    | .mutate (.importList list) =>
      s.lists.importBlocked list = s.lists ∨ ∃ p ∈ s.calls, willExport p = true
    | .importWhitelist list =>
      s.lists.importWhitelist list = s.lists ∨ ∃ p ∈ s.calls, willExport p = true
    | .importFlags list =>
      s.lists.importFlags list = s.lists ∨ ∃ p ∈ s.calls, willExport p = true
    | .write list => saved (some list) = s.lists ∨ Backed s.lists (s.calls.eraseIdx k)
    | _ => True
  | _ => True

section Calls

variable {calls : List Progress} {k : Nat} {p q : Progress}

theorem mem_set_of_ne (hk : calls[k]? = some p) (hq : q ∈ calls) (hne : q ≠ p) (x : Progress) :
    q ∈ calls.set k x := by
  obtain ⟨i,hi⟩ := List.mem_iff_getElem?.mp hq
  have hik : k ≠ i := by
    intro heq
    rw [← heq,hk] at hi
    exact hne (Option.some.inj hi).symm
  exact List.mem_of_getElem? ((List.getElem?_set_ne hik).trans hi)

theorem mem_eraseIdx_of_ne (hk : calls[k]? = some p) (hq : q ∈ calls) (hne : q ≠ p) :
    q ∈ calls.eraseIdx k := by
  obtain ⟨i,hi⟩ := List.mem_iff_getElem?.mp hq
  refine List.mem_eraseIdx_iff_getElem?.mpr ⟨i,?_,hi⟩
  intro heq
  rw [heq,hk] at hi
  exact hne (Option.some.inj hi).symm

/-- What a call leaves behind: the calls with its rest, or without it. -/
def replace (calls : List Progress) (k : Nat) : Option Progress → List Progress
  | some x => calls.set k x
  | none => calls.eraseIdx k

theorem mem_replace_of_ne (hk : calls[k]? = some p) (hq : q ∈ calls) (hne : q ≠ p)
    (x : Option Progress) : q ∈ replace calls k x := by
  cases x with
  | none => exact mem_eraseIdx_of_ne hk hq hne
  | some x => exact mem_set_of_ne hk hq hne x

theorem mem_replace_self (hk : calls[k]? = some p) (x : Progress) :
    x ∈ replace calls k (some x) := by
  obtain ⟨hlt,_⟩ := List.getElem?_eq_some_iff.mp hk
  exact List.mem_set hlt x

/-- A call that goes on with nothing to save takes no safeguard away. -/
theorem Backed.replace {lists : Lists} (h : Backed lists calls) (hk : calls[k]? = some p)
    (hexport : willExport p = false) (hwrite : ∀ list, p ≠ .write list) (x : Option Progress) :
    Backed lists (replace calls k x) := by
  obtain ⟨q,hq,hbacks⟩ := h
  refine ⟨q,mem_replace_of_ne hk hq ?_ x,hbacks⟩
  rintro rfl
  rcases hbacks with hq | ⟨list,hq,_⟩
  · rw [hexport] at hq
    cases hq
  · exact hwrite list hq

theorem backed_of_willExport (lists : Lists) (h : ∃ q ∈ calls, willExport q = true)
    (hk : calls[k]? = some p) (hexport : willExport p = false) (x : Option Progress) :
    Backed lists (ModerationManager.replace calls k x) := by
  obtain ⟨q,hq,hwill⟩ := h
  refine ⟨q,mem_replace_of_ne hk hq ?_ x,.inl hwill⟩
  rintro rfl
  rw [hexport] at hwill
  cases hwill

end Calls

section Steps

variable {cfg : ModerationConfig} {s : ModerationManager}

/-- A call that does not persist has changed nothing, import apart. -/
theorem mutate_unchanged {l : Lists} {call : Call} (h : (l.mutate call).2 = false)
    (himport : ∀ list, call ≠ .importList list) : (l.mutate call).1 = l := by
  cases call with
  | blockPeer peerId reason now => cases h
  | whitelistPeer peerId => cases h
  | flagStream streamId reason details reporter now => cases h
  | importList list => exact absurd rfl (himport list)
  | unblockPeer peerId =>
    have hnone : l.blockedPeers.entries.lookup peerId = none := by simpa [Lists.mutate] using h
    have hsame : l.blockedPeers.remove peerId = l.blockedPeers := by
      apply BlockedPeers.ext
      apply Finmap.ext_lookup
      intro id
      by_cases hid : id = peerId
      · rw [hid,hnone]
        exact Finmap.lookup_erase _ _
      · exact Finmap.lookup_erase_ne hid
    exact Lists.ext hsame rfl rfl
  | removeWhitelist peerId =>
    have habsent : peerId ∉ l.whitelist := by simpa [Lists.mutate] using h
    exact Lists.ext rfl (Finset.erase_eq_of_notMem habsent) rfl
  | unflagStream streamId =>
    have hlength : l.flags.length ≤ (l.flags.filter (fun f => f.streamId ≠ streamId)).length := by
      have hcount := of_decide_eq_false h
      omega
    exact Lists.ext rfl rfl (List.filter_sublist.eq_of_length_le hlength)

theorem willExport_mutate {l : Lists} {call : Call} (h : (l.mutate call).2 = false) :
    willExport (.mutate call) = false := by
  cases call with
  | blockPeer peerId reason now => cases h
  | whitelistPeer peerId => cases h
  | flagStream streamId reason details reporter now => cases h
  | unblockPeer peerId => rfl
  | removeWhitelist peerId => rfl
  | unflagStream streamId => rfl
  | importList list => rfl

theorem step_proceed {k : Nat} {p : Progress} (hk : s.calls[k]? = some p)
    (order : HashOrder Unit String) (now : Nat) :
    step cfg s (.proceed k order now) = { (progress cfg order now s p).1 with
      calls := replace s.calls k (progress cfg order now s p).2 } := by
  simp only [step,hk]
  cases (progress cfg order now s p).2 <;> rfl

/-- The file has what is in memory, or a call will see to it. -/
def Covered (s : ModerationManager) : Prop := s.Persisted ∨ Backed s.lists s.calls

/-- The sections of an import. -/
theorem covered_of_import {k : Nat} {p : Progress} {lists : Lists} {x : Option Progress}
    (h : s.Covered) (hk : s.calls[k]? = some p) (hexport : willExport p = false)
    (hwrite : ∀ list, p ≠ .write list)
    (hok : lists = s.lists ∨ ∃ p ∈ s.calls, willExport p = true) :
    Covered { s with lists := lists, calls := replace s.calls k x } := by
  rcases hok with rfl | hwill
  · rcases h with h | h
    · exact .inl h
    · exact .inr (h.replace hk hexport hwrite x)
  · exact .inr (backed_of_willExport lists hwill hk hexport x)

theorem covered_mutate {k : Nat} {call : Call} (hpersist : maybePersist cfg = some .exportList)
    (h : s.Covered) (hk : s.calls[k]? = some (.mutate call))
    (himport : ∀ list, call ≠ .importList list) :
    Covered { s with
      lists := (s.lists.mutate call).1
      calls := replace s.calls k (if (s.lists.mutate call).2 then maybePersist cfg else none) } := by
  cases hchanged : (s.lists.mutate call).2 with
  | true =>
    rw [if_pos rfl,hpersist]
    exact .inr ⟨.exportList,mem_replace_self hk _,.inl rfl⟩
  | false =>
    rw [mutate_unchanged hchanged himport,if_neg Bool.false_ne_true]
    rcases h with h | h
    · exact .inl h
    · exact .inr (h.replace hk (willExport_mutate hchanged) (fun _ heq => by cases heq) none)

theorem covered_step (hauto : cfg.autoPersist = true) (hpath : cfg.persistencePath.isSome = true)
    (h : s.Covered) {e : ModerationEvent} (hok : s.LosesNothing e) : (s.step cfg e).Covered := by
  cases e with
  | call c =>
    rcases h with h | ⟨p,hp,hbacks⟩
    · exact .inl h
    · exact .inr ⟨p,List.mem_append_left _ hp,hbacks⟩
  | proceed k order now =>
    have hpersist : maybePersist cfg = some .exportList := by simp [maybePersist,hauto,hpath]
    cases hk : s.calls[k]? with
    | none =>
      simp only [step,hk]
      exact h
    | some p =>
      rw [step_proceed hk]
      have hok := hok p hk
      cases p with
      | importWhitelist list =>
        exact covered_of_import (s := s) h hk rfl (fun _ heq => by cases heq) hok
      | importFlags list =>
        exact covered_of_import (s := s) h hk rfl (fun _ heq => by cases heq) hok
      | exportList =>
        exact .inr ⟨_,mem_replace_self hk _,.inr ⟨_,rfl,importList_exportList _ order now⟩⟩
      | write list => exact hok
      | mutate call =>
        cases call with
        | importList list =>
          exact covered_of_import (s := s) h hk rfl (fun _ heq => by cases heq) hok
        | _ => exact covered_mutate (s := s) hpersist h hk (fun _ heq => by cases heq)

end Steps

section Runs

/-- In runs in which imports add nothing that is not saved later, and no older copy is written over
a newer one, the file has what is in memory whenever no call is under way. -/
theorem persisted_when_returned (cfg : ModerationConfig) (hauto : cfg.autoPersist = true)
    (hpath : cfg.persistencePath.isSome = true) (file : Option ModerationList)
    (es : List ModerationEvent) (h : Along (step cfg) LosesNothing (start file) es) :
    ∀ pre, pre <+: es → (pre.foldl (step cfg) (start file)).calls = [] →
      (pre.foldl (step cfg) (start file)).Persisted := by
  intro pre hpre hreturned
  have hcovered := (h.of_prefix hpre).invariant Covered (.inl rfl)
    (fun s e hs hok => covered_step hauto hpath hs hok)
  rcases hcovered with hpersisted | ⟨p,hp,_⟩
  · exact hpersisted
  · rw [hreturned] at hp
    cases hp

def samplePath : ModerationConfig := ⟨some "moderation.json",true⟩

/-- The calls made at once, and then the steps of the calls in this order. -/
def interleaved (calls : List Call) (order : List Nat) : List ModerationEvent :=
  calls.map .call++order.map (fun k => .proceed k .sorted 0)

/-- Two peers are blocked at once. When the copy for the first is written, that for the second has
still to be made. -/
def overlapping : List ModerationEvent :=
  interleaved [.blockPeer "a" none 1,.blockPeer "b" none 1] [0,0,1,0,0,0]

theorem persisted_when_returned_blocked :
    let last := overlapping.foldl (step samplePath) (start none)
    last.calls = [] ∧ last.Persisted := by
  have h : Along (step samplePath) LosesNothing (start none) overlapping := by
    refine ⟨trivial,trivial,?_,?_,?_,?_,?_,?_,trivial⟩
    · intro p hp
      cases hp
      trivial
    · intro p hp
      cases hp
      trivial
    · intro p hp
      cases hp
      trivial
    · intro p hp
      cases hp
      exact .inr ⟨.exportList,List.mem_singleton_self _,.inl rfl⟩
    · intro p hp
      cases hp
      trivial
    · intro p hp
      cases hp
      exact .inl (importList_exportList _ .sorted 0)
  exact ⟨rfl,persisted_when_returned samplePath rfl rfl none _ h _ (List.prefix_refl _) rfl⟩

/-- A list to import, with one peer on the whitelist. -/
def sharedList : ModerationList := ⟨1,none,0,[],["b"],[]⟩

/-- An import is not saved; and of two peers that are blocked at once, the copy made first is
written last. -/
theorem import_not_persisted :
    (let s := (interleaved [.importList sharedList] [0,0,0]).foldl (step samplePath) (start none)
    s.calls = [] ∧ s.file = none ∧ s.lists.whitelist = {"b"} ∧ ¬ s.Persisted) ∧
    (let s := (interleaved [.blockPeer "a" none 1,.blockPeer "b" none 1] [0,0,1,1,1,0]).foldl
      (step samplePath) (start none)
    s.calls = [] ∧ s.file.map ModerationList.blockedPeers = some [⟨"a",none,1⟩] ∧
      s.lists.blockedPeers.entries.lookup "b" = some ⟨"b",none,1⟩ ∧ ¬ s.Persisted) := by
  constructor
  · intro s
    have hlist : s.lists.whitelist = {"b"} := by decide +kernel
    refine ⟨rfl,rfl,hlist,?_⟩
    intro hpersisted
    have hempty : s.lists.whitelist = ∅ := (congrArg Lists.whitelist hpersisted).symm
    rw [hlist] at hempty
    exact Finset.singleton_ne_empty "b" hempty
  · intro s
    have hfile : s.file.map ModerationList.blockedPeers = some [⟨"a",none,1⟩] := by decide +kernel
    have hlast : s.lists.blockedPeers.entries.lookup "b" = some ⟨"b",none,1⟩ := by decide +kernel
    have hread : (saved s.file).blockedPeers.entries.lookup "b" = none := by decide +kernel
    refine ⟨rfl,hfile,hlast,?_⟩
    intro hpersisted
    rw [hpersisted,hlast] at hread
    cases hread

end Runs

end ModerationManager

end OpenBroadcast.Moderation
