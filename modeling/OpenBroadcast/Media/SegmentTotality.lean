import OpenBroadcast.Media.SegmentMemory

namespace OpenBroadcast.Media

open RawBox

/-- What a run may use: the sequences of requests that the allocator serves, the stack, in calls of
the search for `tfhd` boxes, and the time, in rounds of one such search. -/
structure Limits where
  serves : List Nat → Prop
  depth : Nat
  rounds : Nat

namespace ParserState

/-- What segments are generated from stays within its bounds. -/
def SegmentsBounded (s : ParserState) : Prop :=
  if s.isFragmented then s.fragmented.Bounded else s.regular.Bounded

/-- Segments or an error are returned for a parsed file, whatever was parsed before, exactly if its
tables, sizes and times stay within their bounds. -/
theorem generateMseSegments_returns_iff {s₀ s : ParserState} {data : Bytes}
    (h : s₀.parse data = .ok s) : s.generateMseSegments ≠ .error .panic ↔ s.SegmentsBounded := by
  unfold generateMseSegments SegmentsBounded
  split_ifs with hfragmented
  · rw [bind_returns_iff,Mp4Parser.extractFragmentedSegments_returns_iff]
    refine and_iff_left (fun segments _ hpanic => ?_)
    cases hpanic
  · rw [bind_returns_iff,RegularMp4.createFragments_returns_iff (parse_counts h)]
    refine and_iff_left (fun segments _ hpanic => ?_)
    cases hpanic

/-- The searches of the run. -/
def searches (s : ParserState) : List Bytes := if s.isFragmented then s.fragmented.searches else []

/-- The memory that the run asks for. -/
def requests (s : ParserState) : List Nat := if s.isFragmented then [] else s.regular.requests

/-- The memory that the tables of the file declare. -/
def segmentSizes (s : ParserState) : List Nat :=
  if s.isFragmented then [] else s.regular.declaredSizes

/-- Generation on a machine with limits: it returns, every search ends on the stack and in the time
that there is, and the requests for memory are served. -/
structure GenerationIsTotal (limits : Limits) (s : ParserState) : Prop where
  returns : s.generateMseSegments ≠ .error .panic
  searches : ∀ content ∈ s.searches,
    (fixTfhdFlagsWithin content.length limits.depth limits.rounds content).isSome
  memory : limits.serves s.requests

/-- The file stays within its bounds, and within the limits. -/
structure SegmentsWithin (limits : Limits) (s : ParserState) : Prop where
  bounded : s.SegmentsBounded
  searches : s.isFragmented = true → s.fragmented.SearchesGood (fun content =>
    searchDepth content ≤ limits.depth ∧ searchRounds content ≤ limits.rounds)
  memory : limits.serves s.segmentSizes

/-- Generation is total for a parsed file exactly if the file stays within its bounds and the
limits. -/
theorem generationIsTotal_iff (limits : Limits) {s₀ s : ParserState} {data : Bytes}
    (h : s₀.parse data = .ok s) : GenerationIsTotal limits s ↔ SegmentsWithin limits s := by
  have hreturns := generateMseSegments_returns_iff h
  have hsearches : s.SegmentsBounded → ((∀ content ∈ s.searches,
        (fixTfhdFlagsWithin content.length limits.depth limits.rounds content).isSome) ↔
      (s.isFragmented = true → s.fragmented.SearchesGood (fun content =>
        searchDepth content ≤ limits.depth ∧ searchRounds content ≤ limits.rounds))) := by
    intro hbounded
    simp only [fixTfhdFlagsWithin_isSome_iff]
    unfold SegmentsBounded at hbounded
    unfold ParserState.searches
    cases hfragmented : s.isFragmented with
    | true =>
      rw [hfragmented,if_pos rfl] at hbounded
      rw [if_pos rfl,Mp4Parser.searches_iff hbounded]
      simp
    | false => simp
  have hmemory : s.SegmentsBounded → s.requests = s.segmentSizes := by
    intro hbounded
    unfold SegmentsBounded at hbounded
    unfold ParserState.requests segmentSizes
    cases hfragmented : s.isFragmented with
    | true => rfl
    | false =>
      rw [hfragmented,if_neg (by decide)] at hbounded
      rw [if_neg (by decide),if_neg (by decide),RegularMp4.requests_eq (parse_counts h) hbounded]
  constructor
  · intro htotal
    have hbounded := hreturns.mp htotal.returns
    exact ⟨hbounded,(hsearches hbounded).mp htotal.searches,hmemory hbounded ▸ htotal.memory⟩
  · intro hwithin
    have hbounded := hwithin.bounded
    exact ⟨hreturns.mpr hbounded,(hsearches hbounded).mpr hwithin.searches,
      hmemory hbounded ▸ hwithin.memory⟩

theorem exists_parsed {data : Bytes} {P : ParserState → Bool}
    (h : (new.parse data).toOption.any P = true) :
    ∃ s, new.parse data = .ok s ∧ P s = true := by
  cases hparse : new.parse data with
  | error e =>
    rw [hparse] at h
    cases h
  | ok s =>
    rw [hparse] at h
    exact ⟨s,rfl,h⟩

/-- Some memory. -/
def kibibyte (sizes : List Nat) : Prop := sizes.sum ≤ 2^10

/-- A fragment with empty `traf` boxes. -/
def emptyTrafsFile (k : Nat) : Bytes :=
  encodeAll [RegularMp4.avFtyp,⟨tagMoof,emptyTrafs k⟩,RegularMp4.avMdat]

/-- A regular file needs some memory; a fragment with three `traf` boxes, three calls and seven
rounds. -/
theorem generationIsTotal_iff_avFile :
    (∃ s, new.parse (RegularMp4.avFile 48000) = .ok s ∧
      GenerationIsTotal ⟨kibibyte,0,0⟩ s ∧ SegmentsWithin ⟨kibibyte,0,0⟩ s) ∧
    ∃ s, new.parse (emptyTrafsFile 3) = .ok s ∧
      GenerationIsTotal ⟨(· = []),3,7⟩ s ∧ SegmentsWithin ⟨(· = []),3,7⟩ s := by
  constructor
  · obtain ⟨s,hparse,hrun⟩ := @exists_parsed (RegularMp4.avFile 48000) (fun s =>
      decide (s.generateMseSegments ≠ .error .panic ∧ s.searches = [] ∧ s.requests.sum ≤ 2^10))
      (by decide +kernel)
    obtain ⟨hreturns,hsearches,hmemory⟩ := of_decide_eq_true hrun
    have htotal : GenerationIsTotal ⟨kibibyte,0,0⟩ s := by
      refine ⟨hreturns,?_,hmemory⟩
      rw [hsearches]
      exact List.forall_mem_nil _
    exact ⟨s,hparse,htotal,(generationIsTotal_iff ⟨kibibyte,0,0⟩ hparse).mp htotal⟩
  · obtain ⟨s,hparse,hrun⟩ := @exists_parsed (emptyTrafsFile 3) (fun s =>
      decide (s.generateMseSegments ≠ .error .panic ∧ s.searches = [emptyTrafs 3] ∧
        s.requests = [])) (by decide +kernel)
    obtain ⟨hreturns,hsearches,hmemory⟩ := of_decide_eq_true hrun
    obtain ⟨hrounds,hdepth⟩ := search_emptyTrafs 3
    have htotal : GenerationIsTotal ⟨(· = []),3,7⟩ s := by
      refine ⟨hreturns,?_,hmemory⟩
      rw [hsearches,List.forall_mem_singleton,fixTfhdFlagsWithin_isSome_iff]
      have hseven : searchRounds (emptyTrafs 3) ≤ 7 := by omega
      exact ⟨hdepth.le,hseven⟩
    exact ⟨s,hparse,htotal,(generationIsTotal_iff ⟨(· = []),3,7⟩ hparse).mp htotal⟩

/-- A track of pictures whose `mdhd` says 0 for the timescale. -/
def zeroTimescaleFile : Bytes :=
  encodeAll [RegularMp4.avFtyp,RegularMp4.avMdat,⟨tagMoov,encodeAll [RegularMp4.trakBox 1 0
    tagVide (RegularMp4.tables [0x61,0x76,0x63,0x31] [2,1,1] 500 24 [1,3])]⟩]

/-- Both files can be parsed. The first time stamp of one is a division by 0; the search in the
other, with 64 `traf` boxes, takes `2^64-1` rounds. -/
theorem generation_not_total :
    (∃ s, new.parse zeroTimescaleFile = .ok s ∧ s.generateMseSegments = .error .panic) ∧
    (∃ s, new.parse (emptyTrafsFile 64) = .ok s ∧
      ∀ limits : Limits, limits.rounds < 2^64-1 → ¬ GenerationIsTotal limits s) ∧
    ¬ ∀ data s, new.parse data = .ok s → s.generateMseSegments ≠ .error .panic := by
  obtain ⟨s,hparse,hzero⟩ := @exists_parsed zeroTimescaleFile
    (fun s => decide (s.generateMseSegments = .error .panic)) (by decide +kernel)
  obtain ⟨t,hfragment,hfirst⟩ := @exists_parsed (emptyTrafsFile 64)
    (fun s => decide (s.searches.head? = some (emptyTrafs 64))) (by decide +kernel)
  have hpanic := of_decide_eq_true hzero
  refine ⟨⟨s,hparse,hpanic⟩,⟨t,hfragment,?_⟩,fun hall => hall zeroTimescaleFile s hparse hpanic⟩
  intro limits hrounds htotal
  have hsearch := htotal.searches _ (List.mem_of_head? (of_decide_eq_true hfirst))
  rw [fixTfhdFlagsWithin_isSome_iff] at hsearch
  have hdoubled := (search_emptyTrafs 64).1
  omega

end ParserState

end OpenBroadcast.Media
