import OpenBroadcast.Framework.FoldErrors
import OpenBroadcast.Media.IndexedReads

namespace OpenBroadcast.Media

open RawBox

section Walk

variable {S : Type} {step : S → Bytes → Nat → Bytes → Except Mp4Error (S × Bytes)}
  {skip : Bytes → Nat → Nat} {act : S → Bytes → Bytes → Except Mp4Error S}

/-- As many rounds as there are bytes are enough. -/
theorem walkFrom_enough {n m : Nat} {data : Bytes} (hn : data.length ≤ n)
    (hm : data.length ≤ m) : walkFrom skip n data = walkFrom skip m data := by
  induction n generalizing m data with
  | zero =>
    have hnil : data = [] := List.length_eq_zero_iff.mp (by omega)
    subst hnil
    cases m <;> simp [walkFrom]
  | succ n ih =>
    cases m with
    | zero =>
      have hnil : data = [] := List.length_eq_zero_iff.mp (by omega)
      subst hnil
      simp [walkFrom]
    | succ m =>
      rw [walkFrom,walkFrom]
      dsimp only
      split_ifs with hstop
      · rfl
      · congr 1
        apply ih <;> rw [List.length_drop,List.length_drop] <;> omega

theorem Acts.children_eq (h : Acts step skip act) (data : Bytes) (s : S) :
    children step data s =
      (walkFrom skip data.length data).foldlM (fun s b => act s b.kind b.content) s :=
  h.childrenFrom_eq data.length data s

theorem Acts.enough (h : Acts step skip act) {n : Nat} {data : Bytes} (hn : data.length ≤ n)
    (s : S) : childrenFrom step n data s = children step data s := by
  rw [h.childrenFrom_eq,h.children_eq,walkFrom_enough hn (le_refl _)]

section WellFormed

variable {bs : List RawBox}

/-- Over well-formed boxes, the walk finds these boxes, if it skips none. -/
theorem walkFrom_encodeAll (h : ∀ b ∈ bs, b.Fits)
    (hskip : ∀ b ∈ bs, skip b.kind b.body.length = b.body.length) {n : Nat}
    (hn : (encodeAll bs).length ≤ n) :
    (walkFrom skip n (encodeAll bs)).map (fun b => (b.kind,b.content)) =
      bs.map (fun b => (b.kind,b.body)) := by
  induction bs generalizing n with
  | nil => cases n <;> rfl
  | cons b bs ih =>
    have hb : b.Fits := h b List.mem_cons_self
    have h8 := b.eight_le_size
    have hsize : b.size-8 = b.body.length := Nat.add_sub_cancel_left 8 _
    have hlength : (b.encode++encodeAll bs).length = b.size+(encodeAll bs).length := by
      rw [List.length_append,hb.length_encode]
    rw [encodeAll_cons] at hn ⊢
    cases n with
    | zero => omega
    | succ n =>
      have htail := ih (fun c hc => h c (List.mem_cons_of_mem _ hc))
        (fun c hc => hskip c (List.mem_cons_of_mem _ hc)) (by omega : (encodeAll bs).length ≤ n)
      have hnext : ((b.encode++encodeAll bs).drop 8).drop b.body.length = encodeAll bs := by
        rw [hb.drop_header,List.drop_left]
      have hcontent : ((b.encode++encodeAll bs).drop 8).take b.body.length = b.body := by
        rw [hb.drop_header,List.take_left]
      rw [walkFrom]
      dsimp only
      rw [hb.read_size,if_neg (by omega),hb.read_kind,hsize,hskip b List.mem_cons_self,hnext,
        List.map_cons,List.map_cons,htail,BoxAt.content_mk,hsize,hcontent]

theorem Acts.children_encodeAll (hacts : Acts step skip act) (h : ∀ b ∈ bs, b.Fits)
    (hskip : ∀ b ∈ bs, skip b.kind b.body.length = b.body.length) (s : S) :
    children step (encodeAll bs) s = bs.foldlM (fun s b => act s b.kind b.body) s := by
  have hwalk := walkFrom_encodeAll h hskip (le_refl (encodeAll bs).length)
  have hleft : ∀ l : List BoxAt, l.foldlM (fun s b => act s b.kind b.content) s =
      (l.map (fun b => (b.kind,b.content))).foldlM (fun s p => act s p.1 p.2) s := by
    intro l
    rw [List.foldlM_map]
  rw [hacts.children_eq,hleft,hwalk,List.foldlM_map]

end WellFormed

end Walk

end OpenBroadcast.Media
