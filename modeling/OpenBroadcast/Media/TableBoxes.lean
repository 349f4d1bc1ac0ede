import OpenBroadcast.Framework.FixedWidth
import OpenBroadcast.Media.IndexedReads

namespace OpenBroadcast.Media

open FixedWidth

section Format

variable {α β : Type}

/-- A table after a header: the number of its entries, and these. -/
def encodeTable (f : FixedWidth α) (header : Bytes) (entries : List α) : Bytes :=
  header++toBe 4 entries.length++entries.flatMap f.encode

/-- As many entries as are declared after so many bytes, or as are there. -/
def tableEntries (f : FixedWidth α) (header : Nat) (data : Bytes) : List α :=
  if data.length < header+4 then []
  else (f.complete (data.drop (header+4))).take (beNat ((data.drop header).take 4))

theorem tableEntries_encodeTable (f : FixedWidth α) {header : Bytes} {entries : List α}
    (hentries : entries.length < 2^32) :
    tableEntries f header.length (encodeTable f header entries) = entries := by
  have hcount : beNat (toBe 4 entries.length) = entries.length := by
    rw [beNat_toBe]
    exact Nat.mod_eq_of_lt hentries
  have hheader : (header++toBe 4 entries.length).length = header.length+4 := by
    rw [List.length_append,length_toBe]
  have hlong : ¬ (encodeTable f header entries).length < header.length+4 := by
    rw [encodeTable,List.length_append,hheader]
    omega
  have hdrop : (encodeTable f header entries).drop (header.length+4) = entries.flatMap f.encode :=
    List.drop_left' hheader
  have htake : ((encodeTable f header entries).drop header.length).take 4 =
      toBe 4 entries.length := by
    rw [encodeTable,List.append_assoc,List.drop_left,List.take_left' (length_toBe 4 _)]
  rw [tableEntries,if_neg hlong,hdrop,htake,hcount,f.complete_flatMap,List.take_length]

theorem toNat_readU32 (offset : Nat) (data : Bytes) :
    (readU32 offset data).toNat = beNat ((data.drop offset).take 4) := by
  have hlt := beNat_lt ((data.drop offset).take 4)
  have hle : 256^((data.drop offset).take 4).length ≤ 256^4 :=
    Nat.pow_le_pow_right (by decide) (List.length_take_le 4 _)
  rw [readU32,UInt32.toNat_ofNat']
  exact Nat.mod_eq_of_lt (hlt.trans_le hle)

/-- The loop over the entries takes those that are all there. -/
theorem readEntries_eq_take (f : FixedWidth α) {entry : Bytes → β} {view : α → β}
    (hentry : ∀ data, f.width ≤ data.length → entry data = view (f.decode (data.take f.width)))
    (n : Nat) (data : Bytes) :
    readEntries f.width entry n data = ((f.complete data).take n).map view := by
  induction n generalizing data with
  | zero => rfl
  | succ n ih =>
    rw [readEntries]
    split_ifs with hshort
    · rw [f.complete_of_lt hshort]
      rfl
    · have hle : f.width ≤ data.length := by omega
      rw [f.complete_of_le hle,List.take_succ_cons,List.map_cons,hentry data hle,ih]

theorem parseTable_eq_entries (f : FixedWidth α) {entry : Bytes → β} {view : α → β}
    (hentry : ∀ data, f.width ≤ data.length → entry data = view (f.decode (data.take f.width)))
    (data : Bytes) : parseTable f.width entry data = (tableEntries f 4 data).map view := by
  unfold parseTable tableEntries
  split_ifs with hshort
  · rfl
  · rw [toNat_readU32,readEntries_eq_take f hentry]

end Format

section Entries

variable {data : Bytes}

theorem readU32_pair (data : Bytes) :
    (readU32 0 data,readU32 4 data) = (u32.pair u32).decode (data.take 8) := by
  simp [readU32,pair,u32,List.take_take,List.drop_take]

theorem readU32_triple (data : Bytes) :
    (readU32 0 data,readU32 4 data,readU32 8 data) =
      (u32.pair (u32.pair u32)).decode (data.take 12) := by
  simp [readU32,pair,u32,List.take_take,List.drop_take]

theorem readU32_signed (data : Bytes) :
    (readU32 0 data,(readU32 4 data).toInt32) = (u32.pair i32).decode (data.take 8) := by
  simp [readU32,pair,u32,i32,List.take_take,List.drop_take]

/-- The common size of all samples is left out, if there is room for it. -/
def DefaultSizeZero (data : Bytes) : Prop :=
  12 ≤ data.length → beNat ((data.drop 4).take 4) = 0

theorem parseStsz_eq_entries (hdefault : DefaultSizeZero data) :
    parseStsz data = tableEntries u32 8 data := by
  unfold parseStsz tableEntries
  split_ifs with hshort
  · rfl
  · have hzero : readU32 4 data = 0 := by
      apply UInt32.toNat_inj.mp
      rw [toNat_readU32,hdefault (by omega)]
      rfl
    have hread (data : Bytes) : u32.width ≤ data.length →
        readU32 0 data = id (u32.decode (data.take u32.width)) := fun _ => rfl
    have hentries := readEntries_eq_take u32 hread (readU32 8 data).toNat (data.drop 12)
    dsimp only
    rw [if_neg (by simp [hzero])]
    rw [toNat_readU32,List.map_id] at hentries
    rw [toNat_readU32]
    exact hentries

end Entries

/-- The parser reads back every table that is written after the header, and of any bytes the
entries that are there, as far as they are declared. -/
structure TableLaw {α β : Type} (parse : Bytes → Except Mp4Error (List β)) (f : FixedWidth α)
    (view : α → β) (header : Bytes) (Covered : Bytes → Prop) : Prop where
  decodes : ∀ entries : List α, entries.length < 2^32 →
    parse (encodeTable f header entries) = .ok (entries.map view)
  reads : ∀ data, Covered data → parse data = .ok ((tableEntries f header.length data).map view)

section Laws

variable {α β : Type} {parse : Bytes → Except Mp4Error (List β)} {f : FixedWidth α} {view : α → β}
  {header : Bytes}

theorem TableLaw.of_reads {Covered : Bytes → Prop}
    (hcovered : ∀ entries : List α, Covered (encodeTable f header entries))
    (hreads : ∀ data, Covered data →
      parse data = .ok ((tableEntries f header.length data).map view)) :
    TableLaw parse f view header Covered := by
  refine ⟨?_,hreads⟩
  intro entries hentries
  rw [hreads _ (hcovered entries),tableEntries_encodeTable f hentries]

/-- The tables whose header is a version and flags. -/
theorem TableLaw.of_parseTable {entry : Bytes → β}
    (hparse : ∀ data, parse data = .ok (parseTable f.width entry data))
    (hheader : header.length = 4)
    (hentry : ∀ data, f.width ≤ data.length → entry data = view (f.decode (data.take f.width))) :
    TableLaw parse f view header (fun _ => True) := by
  apply TableLaw.of_reads (fun _ => trivial)
  intro data _
  rw [hparse,parseTable_eq_entries f hentry,hheader]

end Laws

/-- Each of the tables is read back from its box, whatever the version and the flags, and of any
bytes each parser takes as many entries as are declared and all there. -/
theorem sample_tables_parsed (version flag₁ flag₂ flag₃ : UInt8) :
    let header : Bytes := [version,flag₁,flag₂,flag₃]
    TableLaw Indexed.parseStsz u32 id (header++toBe 4 0) DefaultSizeZero ∧
    TableLaw Indexed.parseStts (u32.pair u32) id header (fun _ => True) ∧
    TableLaw Indexed.parseStsc (u32.pair (u32.pair u32)) id header (fun _ => True) ∧
    TableLaw Indexed.parseStco u32 UInt32.toUInt64 header (fun _ => True) ∧
    TableLaw Indexed.parseCo64 u64 id header (fun _ => True) ∧
    TableLaw Indexed.parseStss u32 id header (fun _ => True) ∧
    TableLaw Indexed.parseCtts (u32.pair i32) id header (fun _ => True) := by
  intro header
  refine ⟨?_,?_,?_,?_,?_,?_,?_⟩
  · apply TableLaw.of_reads
    · intro entries _
      simp [encodeTable,header,beNat_toBe]
    · intro data hdefault
      rw [Indexed.parseStsz_eq,parseStsz_eq_entries hdefault,List.map_id]
      rfl
  · exact .of_parseTable Indexed.parseStts_eq rfl (fun data _ => readU32_pair data)
  · exact .of_parseTable Indexed.parseStsc_eq rfl (fun data _ => readU32_triple data)
  · exact .of_parseTable Indexed.parseStco_eq rfl
      (fun data _ => UInt64.ofNat_uInt32ToNat (readU32 0 data))
  · exact .of_parseTable Indexed.parseCo64_eq rfl (fun data _ => rfl)
  · exact .of_parseTable Indexed.parseStss_eq rfl (fun data _ => rfl)
  · exact .of_parseTable Indexed.parseCtts_eq rfl (fun data _ => readU32_signed data)

end OpenBroadcast.Media
