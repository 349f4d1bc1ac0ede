import OpenBroadcast.Framework.Boxes

namespace OpenBroadcast

/-- What stands for bytes that are no text: `U+FFFD`. -/
def replacement : Char := Char.ofNat 0xfffd

/-- The number of bytes of a character with the given first byte, or 0 if there is none. -/
def utf8Width (a : UInt8) : Nat :=
  if a < 0x80 then 1
  else if 0xc2 ≤ a ∧ a ≤ 0xdf then 2
  else if 0xe0 ≤ a ∧ a ≤ 0xef then 3
  else if 0xf0 ≤ a ∧ a ≤ 0xf4 then 4
  else 0

def isContinuation (b : UInt8) : Bool := 0x80 ≤ b && b ≤ 0xbf

/-- The second byte of a character of three or four bytes: neither overlong, nor a surrogate, nor
beyond the last character. -/
def isSecond (a b : UInt8) : Bool :=
  if a = 0xe0 then 0xa0 ≤ b && b ≤ 0xbf
  else if a = 0xed then 0x80 ≤ b && b ≤ 0x9f
  else if a = 0xf0 then 0x90 ≤ b && b ≤ 0xbf
  else if a = 0xf4 then 0x80 ≤ b && b ≤ 0x8f
  else isContinuation b

/-- The character at the start of the bytes and its length. What has begun as a character is
replaced as a whole. -/
def lossyChar (a : UInt8) (rest : Bytes) : Char × Nat :=
  let b := rest.getD 0 0
  let c := rest.getD 1 0
  let d := rest.getD 2 0
  match utf8Width a with
  | 1 => (Char.ofNat a.toNat,1)
  | 2 =>
    if !isContinuation b then (replacement,1)
    else (Char.ofNat (a.toNat%32*64+b.toNat%64),2)
  | 3 =>
    if !isSecond a b then (replacement,1)
    else if !isContinuation c then (replacement,2)
    else (Char.ofNat (a.toNat%16*4096+b.toNat%64*64+c.toNat%64),3)
  | 4 =>
    if !isSecond a b then (replacement,1)
    else if !isContinuation c then (replacement,2)
    else if !isContinuation d then (replacement,3)
    else (Char.ofNat (a.toNat%8*262144+b.toNat%64*4096+c.toNat%64*64+d.toNat%64),4)
  | _ => (replacement,1)

def lossyChars : Nat → Bytes → List Char
  | _,[] => []
  | 0,_ => []
  | n+1,a::rest =>
    let (c,length) := lossyChar a rest
    c::lossyChars n (rest.drop (length-1))

/-- `String::from_utf8_lossy`. -/
def fromUtf8Lossy (data : Bytes) : String := String.ofList (lossyChars data.length data)

/-- `std::str::from_utf8(data).ok()`. -/
def fromUtf8 (data : Bytes) : Option String := String.fromUTF8? ⟨data.toArray⟩

/-- `s.as_bytes()`. -/
def asBytes (s : String) : Bytes := s.toByteArray.data.toList

section RoundTrip

theorem isContinuation_iff (b : UInt8) :
    isContinuation b = true ↔ 0x80 ≤ b.toNat ∧ b.toNat ≤ 0xbf := by
  simp [isContinuation,UInt8.le_iff_toNat_le]

/-- The second byte is one that continues a character, above or below a limit that the first may
set. -/
theorem isSecond_of {a b : UInt8} (h : 0x80 ≤ b.toNat ∧ b.toNat ≤ 0xbf)
    (h3 : a.toNat = 0xe0 → 0xa0 ≤ b.toNat) (hs : a.toNat = 0xed → b.toNat ≤ 0x9f)
    (h4 : a.toNat = 0xf0 → 0x90 ≤ b.toNat) (hl : a.toNat = 0xf4 → b.toNat ≤ 0x8f) :
    isSecond a b = true := by
  have code : ∀ n : UInt8, a = n ↔ a.toNat = n.toNat := fun n => UInt8.toNat_inj.symm
  simp only [isSecond,code]
  split_ifs with h₁ h₂ h₃ h₄
  · simpa [UInt8.le_iff_toNat_le] using And.intro (h3 h₁) h.2
  · simpa [UInt8.le_iff_toNat_le] using And.intro h.1 (hs h₂)
  · simpa [UInt8.le_iff_toNat_le] using And.intro (h4 h₃) h.2
  · simpa [UInt8.le_iff_toNat_le] using And.intro h.1 (hl h₄)
  · exact (isContinuation_iff b).mpr h

theorem utf8Width_eq (a : UInt8) : utf8Width a =
    if a.toNat < 0x80 then 1
    else if 0xc2 ≤ a.toNat ∧ a.toNat ≤ 0xdf then 2
    else if 0xe0 ≤ a.toNat ∧ a.toNat ≤ 0xef then 3
    else if 0xf0 ≤ a.toNat ∧ a.toNat ≤ 0xf4 then 4
    else 0 := by
  simp [utf8Width,UInt8.le_iff_toNat_le,UInt8.lt_iff_toNat_lt]

/-- The bytes of a character are read back, whatever follows them. -/
theorem lossyChar_encode (c : Char) (rest : Bytes) : ∃ a tail, String.utf8EncodeChar c = a::tail ∧
    lossyChar a (tail++rest) = (c,tail.length+1) := by
  have hv : c.val.toNat < 0xd800 ∨ 0xdfff < c.val.toNat ∧ c.val.toNat < 0x110000 := c.valid
  have code : ∀ n, n = c.val.toNat → Char.ofNat n = c := by
    rintro n rfl
    exact Char.ofNat_toNat c
  have byte : ∀ n, n < 256 → (UInt8.ofNat n).toNat = n := by
    intro n hn
    rw [UInt8.toNat_ofNat']
    omega
  unfold String.utf8EncodeChar
  generalize c.val.toNat = v at hv code
  dsimp only
  split_ifs with h1 h2 h3
  · have ha := byte v (by omega)
    have width : utf8Width (UInt8.ofNat v) = 1 := by
      rw [utf8Width_eq,ha]
      split_ifs <;> omega
    refine ⟨_,_,rfl,?_⟩
    simp only [lossyChar,width,ha]
    rw [code v rfl]
    rfl
  · have ha := byte (v/64%32+192) (by omega)
    have hb := byte (v%64+128) (by omega)
    have width : utf8Width (UInt8.ofNat (v/64%32+192)) = 2 := by
      rw [utf8Width_eq,ha]
      split_ifs <;> omega
    have second : isContinuation (UInt8.ofNat (v%64+128)) = true := by
      rw [isContinuation_iff,hb]
      omega
    refine ⟨_,_,rfl,?_⟩
    simp only [lossyChar,width,List.cons_append,List.nil_append,List.getD_cons_zero,second,ha,hb,
      Bool.not_true,Bool.false_eq_true,if_false]
    rw [code _ (by omega)]
    rfl
  · have ha := byte (v/4096%16+224) (by omega)
    have hb := byte (v/64%64+128) (by omega)
    have hd := byte (v%64+128) (by omega)
    have width : utf8Width (UInt8.ofNat (v/4096%16+224)) = 3 := by
      rw [utf8Width_eq,ha]
      split_ifs <;> omega
    have second : isSecond (UInt8.ofNat (v/4096%16+224)) (UInt8.ofNat (v/64%64+128)) = true := by
      apply isSecond_of <;> rw [hb] <;> omega
    have third : isContinuation (UInt8.ofNat (v%64+128)) = true := by
      rw [isContinuation_iff,hd]
      omega
    refine ⟨_,_,rfl,?_⟩
    simp only [lossyChar,width,List.cons_append,List.nil_append,List.getD_cons_zero,
      List.getD_cons_succ,second,third,ha,hb,hd,Bool.not_true,Bool.false_eq_true,if_false]
    rw [code _ (by omega)]
    rfl
  · have ha := byte (v/262144%8+240) (by omega)
    have hb := byte (v/4096%64+128) (by omega)
    have hd := byte (v/64%64+128) (by omega)
    have he := byte (v%64+128) (by omega)
    have width : utf8Width (UInt8.ofNat (v/262144%8+240)) = 4 := by
      rw [utf8Width_eq,ha]
      split_ifs <;> omega
    have second : isSecond (UInt8.ofNat (v/262144%8+240)) (UInt8.ofNat (v/4096%64+128)) =
        true := by
      apply isSecond_of <;> rw [hb] <;> omega
    have third : isContinuation (UInt8.ofNat (v/64%64+128)) = true := by
      rw [isContinuation_iff,hd]
      omega
    have fourth : isContinuation (UInt8.ofNat (v%64+128)) = true := by
      rw [isContinuation_iff,he]
      omega
    refine ⟨_,_,rfl,?_⟩
    simp only [lossyChar,width,List.cons_append,List.nil_append,List.getD_cons_zero,
      List.getD_cons_succ,second,third,fourth,ha,hb,hd,he,Bool.not_true,Bool.false_eq_true,
      if_false]
    rw [code _ (by omega)]
    rfl

theorem lossyChars_encode (cs : List Char) (n : Nat)
    (hn : (cs.flatMap String.utf8EncodeChar).length ≤ n) :
    lossyChars n (cs.flatMap String.utf8EncodeChar) = cs := by
  induction cs generalizing n with
  | nil => cases n <;> rfl
  | cons c cs ih =>
    obtain ⟨a,tail,hbytes,hread⟩ := lossyChar_encode c (cs.flatMap String.utf8EncodeChar)
    rw [List.flatMap_cons,hbytes,List.cons_append] at hn ⊢
    rw [List.length_cons,List.length_append] at hn
    cases n with
    | zero => omega
    | succ n =>
      rw [lossyChars,hread]
      dsimp only
      rw [Nat.add_sub_cancel,List.drop_left,ih n (by omega)]

theorem asBytes_ofList (cs : List Char) :
    asBytes (String.ofList cs) = cs.flatMap String.utf8EncodeChar := by
  simp [asBytes,List.utf8Encode]

/-- Text is read back from its bytes. -/
theorem fromUtf8Lossy_asBytes (s : String) : fromUtf8Lossy (asBytes s) = s := by
  have hs : s = String.ofList s.toList := (String.ofList_toList).symm
  rw [hs,asBytes_ofList,fromUtf8Lossy,lossyChars_encode _ _ le_rfl]

theorem fromUtf8_eq_some {data : Bytes} {s : String} (h : fromUtf8 data = some s) :
    data = asBytes s := by
  unfold fromUtf8 String.fromUTF8? at h
  split_ifs at h with hvalid
  cases h
  rfl

end RoundTrip

section Ascii

theorem toNat_charOfNat {n : Nat} (h : n.isValidChar) : (Char.ofNat n).toNat = n := by
  rw [Char.ofNat,dif_pos h]
  rfl

theorem bounds_of_isSecond {a b : UInt8} (h : isSecond a b = true) :
    0x80 ≤ b.toNat ∧ b.toNat ≤ 0xbf ∧ (a.toNat = 0xe0 → 0xa0 ≤ b.toNat) ∧
      (a.toNat = 0xed → b.toNat ≤ 0x9f) ∧ (a.toNat = 0xf0 → 0x90 ≤ b.toNat) ∧
      (a.toNat = 0xf4 → b.toNat ≤ 0x8f) := by
  have code : ∀ n : UInt8, a = n ↔ a.toNat = n.toNat := fun n => UInt8.toNat_inj.symm
  simp only [isSecond,isContinuation,code,UInt8.le_iff_toNat_le,UInt8.reduceToNat] at h
  split_ifs at h <;>
    simp only [Bool.and_eq_true,decide_eq_true_eq] at h <;>
    omega

/-- Nothing but a byte below `0x80` is read as the character of one. -/
theorem lossyChar_ascii {a : UInt8} {rest : Bytes} (h : (lossyChar a rest).1.toNat < 0x80) :
    a.toNat < 0x80 := by
  have hreplacement : ¬ replacement.toNat < 0x80 := by decide
  have large : ∀ n, 0x80 ≤ n → (n < 0xd800 ∨ 0xdfff < n ∧ n < 0x110000) →
      ¬ (Char.ofNat n).toNat < 0x80 := by
    intro n hn hvalid
    rw [toNat_charOfNat hvalid]
    omega
  by_contra ha
  unfold lossyChar at h
  extract_lets b c d at h
  by_cases h2 : 0xc2 ≤ a.toNat ∧ a.toNat ≤ 0xdf
  · have width : utf8Width a = 2 := by rw [utf8Width_eq,if_neg ha,if_pos h2]
    simp only [width] at h
    split_ifs at h
    · exact hreplacement h
    · exact large _ (by omega) (by omega) h
  by_cases h3 : 0xe0 ≤ a.toNat ∧ a.toNat ≤ 0xef
  · have width : utf8Width a = 3 := by rw [utf8Width_eq,if_neg ha,if_neg h2,if_pos h3]
    simp only [width] at h
    split_ifs at h with hb hc
    · exact hreplacement h
    · exact hreplacement h
    · have hb := bounds_of_isSecond (by simpa using hb)
      exact large _ (by omega) (by omega) h
  by_cases h4 : 0xf0 ≤ a.toNat ∧ a.toNat ≤ 0xf4
  · have width : utf8Width a = 4 := by rw [utf8Width_eq,if_neg ha,if_neg h2,if_neg h3,if_pos h4]
    simp only [width] at h
    split_ifs at h with hb hc hd
    · exact hreplacement h
    · exact hreplacement h
    · exact hreplacement h
    · have hb := bounds_of_isSecond (by simpa using hb)
      exact large _ (by omega) (by omega) h
  · have width : utf8Width a = 0 := by
      rw [utf8Width_eq,if_neg ha,if_neg h2,if_neg h3,if_neg h4]
    simp only [width] at h
    exact hreplacement h

theorem lossyChar_of_ascii {a : UInt8} (ha : a.toNat < 0x80) (rest : Bytes) :
    lossyChar a rest = (Char.ofNat a.toNat,1) := by
  have width : utf8Width a = 1 := by rw [utf8Width_eq,if_pos ha]
  simp only [lossyChar,width]

theorem encode_ascii {a : UInt8} (ha : a.toNat < 0x80) :
    String.utf8EncodeChar (Char.ofNat a.toNat) = [a] := by
  have hvalid : a.toNat.isValidChar := .inl (by omega)
  have hcode : (Char.ofNat a.toNat).val.toNat = a.toNat := toNat_charOfNat hvalid
  unfold String.utf8EncodeChar
  simp only [hcode]
  rw [if_pos (by omega)]
  simp

theorem lossyChars_ascii {n : Nat} {data : Bytes} (hn : data.length ≤ n)
    (h : ∀ c ∈ lossyChars n data, c.toNat < 0x80) :
    data = (lossyChars n data).flatMap String.utf8EncodeChar := by
  induction n generalizing data with
  | zero =>
    cases data with
    | nil => rfl
    | cons a rest => simp at hn
  | succ n ih =>
    cases data with
    | nil => rfl
    | cons a rest =>
      have ha : a.toNat < 0x80 := lossyChar_ascii (h _ (List.mem_cons_self ..))
      simp only [lossyChars,lossyChar_of_ascii ha,Nat.sub_self,List.drop_zero,
        List.mem_cons] at h ⊢
      have hrest := ih (by simpa using hn) (fun c hc => h c (.inr hc))
      rw [List.flatMap_cons,encode_ascii ha,← hrest]
      rfl

/-- What is read as text of characters below `0x80` is the bytes of that text. -/
theorem fromUtf8Lossy_ascii {data : Bytes} {s : String} (hs : ∀ c ∈ s.toList, c.toNat < 0x80)
    (h : fromUtf8Lossy data = s) : data = asBytes s := by
  have hchars : lossyChars data.length data = s.toList := by
    rw [← h,fromUtf8Lossy,String.toList_ofList]
  have hdata := @lossyChars_ascii data.length data le_rfl (by rwa [hchars])
  rw [← h,fromUtf8Lossy,asBytes_ofList]
  exact hdata

end Ascii

end OpenBroadcast
