import ServiceMap.Proofs.Link.Merge
import ServiceMap.Proofs.Link.Report
import ServiceMap.Proofs.Trace.Grouping

/-!
# Linking in buckets

Spans may be linked in several runs, if those of one trace stay together: the reports of the runs, read back and merged,
come to the report of all spans at once, character by character. The calls of the runs are the calls of the whole, one
run after the other, and a tally of tallies is the tally of all they are made of.
-/

namespace ServiceMap

/-! ### Merging links of calls -/

theorem Tally.merge_linksOfCalls {parts : List (List Call)} (h : ∀ calls ∈ parts, ∀ call ∈ calls, call.pair.IsNamed) :
    merge (parts.map linksOfCalls) = .ok (linksOfCalls parts.flatten) := by
  have hnamed : ∀ call ∈ parts.flatten, call.pair.IsNamed := by
    intro call hcall
    obtain ⟨calls, hcalls, hmem⟩ := List.mem_flatten.mp hcall
    exact h calls hcalls call hmem
  have hparts : parts.map linksOfCalls = (parts.map fun calls => calls.map Call.share).map linksOfShares := by
    rw [List.map_map]
    rfl
  rw [hparts, merge, foldl_addLinks_linksOfShares (t := {}) List.nodup_nil, ← List.map_flatten]
  exact Linker.links_of_calls hnamed

/-! ### Counts -/

theorem isSound_of_mem_linksOfCalls {calls : List Call} (h : ∀ call ∈ calls, call.pair.IsNamed) :
    ∀ link ∈ linksOfCalls calls, link.IsSound :=
  isSound_of_mem_linksOfShares (isSound_share_of_isNamed h)

/-- Each link of some of the calls has one of all calls whose counts are not less. -/
theorem exists_link_of_sublist {calls all : List Call} (h : calls.Sublist all) {link : Link}
    (hlink : link ∈ linksOfCalls calls) :
    ∃ whole ∈ linksOfCalls all, link.calls ≤ whole.calls ∧ link.errors ≤ whole.errors := by
  obtain ⟨share, hshare, rfl⟩ := List.mem_map.mp hlink
  obtain ⟨hpair, hcounts⟩ := Tally.mem_shares_addAll.mp hshare
  have hle := Share.sumFor_le_of_sublist (h.map Call.share) share.1
  have hwhole : share.1 ∈ (all.map Call.share).map (·.1) := ((h.map Call.share).map _).subset hpair
  have hmem : (share.1, Share.sumFor share.1 (all.map Call.share)) ∈ (({} : Tally).addAll (all.map Call.share)).shares :=
    Tally.mem_shares_addAll.mpr ⟨hwhole, rfl⟩
  refine ⟨_, List.mem_map_of_mem hmem, ?_⟩
  rw [← hcounts] at hle
  exact hle

theorem Decimal.tooLong_of_le {m n : Nat} (hle : m ≤ n) (h : tooLong n = false) : tooLong m = false := by
  simp only [tooLong, decide_eq_false_iff_not, Int.natAbs_natCast] at h ⊢
  omega

theorem hasLongCount_of_sublist {calls all : List Call} (h : calls.Sublist all)
    (hshort : ∀ link ∈ linksOfCalls all, Report.hasLongCount link.toRecord = false) :
    ∀ link ∈ linksOfCalls calls, Report.hasLongCount link.toRecord = false := by
  intro link hlink
  obtain ⟨whole, hwhole, hcalls, herrors⟩ := exists_link_of_sublist h hlink
  obtain ⟨hcalls', herrors'⟩ := Bool.or_eq_false_iff.mp (hshort whole hwhole)
  exact Bool.or_eq_false_iff.mpr ⟨Decimal.tooLong_of_le hcalls hcalls', Decimal.tooLong_of_le herrors herrors'⟩

/-! ### Buckets -/

/-- The two lists of spans have no trace in common. -/
def AreApart (strict : Bool) (spans others : List Span) : Prop :=
  ∀ s ∈ spans, ∀ t ∈ others, s.groupKey strict ≠ t.groupKey strict

instance (strict : Bool) (spans others : List Span) : Decidable (AreApart strict spans others) :=
  inferInstanceAs (Decidable (∀ s ∈ spans, ∀ t ∈ others, s.groupKey strict ≠ t.groupKey strict))

theorem callsOf_flatten {strict : Bool} {buckets : List (List Span)} (h : buckets.Pairwise (AreApart strict)) :
    callsOf strict buckets.flatten = buckets.flatMap (callsOf strict) := by
  have hgroups : (groupByTrace strict buckets.flatten).values =
      buckets.flatMap fun bucket => (groupByTrace strict bucket).values := values_groupBy_flatten h
  rw [callsOf, hgroups, List.flatMap_assoc]
  rfl

def reportOf (strict : Bool) (spans : List Span) : Except Failure String := do
  let (links, _) ← linkSpans strict spans
  Report.write links

theorem reportOf_eq (strict : Bool) (spans : List Span) :
    reportOf strict spans = Report.write (linksOfCalls (callsOf strict spans)) := by
  obtain ⟨notes, hlinks⟩ := linkSpans_eq strict spans
  rw [reportOf, hlinks]
  rfl

/-- The report of all spans is what the reports of buckets come to that have no trace in common: each of them is
written, each is read back without a warning, and the links that are read are merged and written again. -/
theorem reportOf_flatten {strict : Bool} {buckets : List (List Span)} (hapart : buckets.Pairwise (AreApart strict))
    (hshort : ∀ links notes, linkSpans strict buckets.flatten = .ok (links, notes) →
      ∀ link ∈ links, Report.hasLongCount link.toRecord = false) :
    ∃ texts collections text, buckets.mapM (reportOf strict) = .ok texts ∧
      texts.map Report.readText = collections.map (fun links => .quiet (.ok links)) ∧
      (Tally.merge collections) >>= Report.write = .ok text ∧ reportOf strict buckets.flatten = .ok text := by
  obtain ⟨notes, hlinks⟩ := linkSpans_eq strict buckets.flatten
  have hshort := hshort _ _ hlinks
  rw [callsOf_flatten hapart] at hshort
  -- Counts grow from a bucket to the whole, so none in a bucket is too long to be written.
  have hbucket : ∀ bucket ∈ buckets, ∀ link ∈ linksOfCalls (callsOf strict bucket),
      Report.hasLongCount link.toRecord = false := by
    intro bucket hmem
    exact hasLongCount_of_sublist (List.sublist_flatten_of_mem (List.mem_map_of_mem hmem)) hshort
  have hmerge : Tally.merge (buckets.map fun bucket => linksOfCalls (callsOf strict bucket)) =
      .ok (linksOfCalls (buckets.flatMap (callsOf strict))) := by
    have hnamed : ∀ calls ∈ buckets.map (callsOf strict), ∀ call ∈ calls, call.pair.IsNamed := by
      intro calls hcalls call hcall
      obtain ⟨bucket, _, rfl⟩ := List.mem_map.mp hcalls
      exact isNamed_of_mem_callsOf hcall
    have hparts := Tally.merge_linksOfCalls hnamed
    rwa [List.map_map] at hparts
  refine ⟨buckets.map fun bucket => Report.textOf (linksOfCalls (callsOf strict bucket)),
    buckets.map fun bucket => linksOfCalls (callsOf strict bucket),
    Report.textOf (linksOfCalls (buckets.flatMap (callsOf strict))), ?_, ?_, ?_, ?_⟩
  · apply mapM_eq_ok
    intro bucket hmem
    rw [reportOf_eq, Report.write_eq (hbucket bucket hmem)]
  · rw [List.map_map, List.map_map]
    apply List.map_congr_left
    intro bucket hmem
    have hsound := isSound_of_mem_linksOfCalls fun call (h : call ∈ callsOf strict bucket) => isNamed_of_mem_callsOf h
    rw [Function.comp_apply, Function.comp_apply, Report.readText_textOf hsound (hbucket bucket hmem)]
  · rw [hmerge, ← Report.write_eq hshort]
    rfl
  · rw [reportOf_eq, callsOf_flatten hapart, Report.write_eq hshort]

def twoTraces : List (List Span) :=
  [sharedTrace, sharedTrace.map fun span => { span with traceId := "8" }]

theorem reportOf_flatten_twoTraces : ∃ texts collections text, twoTraces.mapM (reportOf false) = .ok texts ∧
    texts.map Report.readText = collections.map (fun links => .quiet (.ok links)) ∧
    (Tally.merge collections) >>= Report.write = .ok text ∧ reportOf false twoTraces.flatten = .ok text := by
  apply reportOf_flatten (by decide)
  intro links notes h
  obtain ⟨notes', hlinks⟩ := linkSpans_eq false twoTraces.flatten
  obtain ⟨rfl, -⟩ := Prod.mk.inj (Except.ok.inj (hlinks.symm.trans h))
  decide +kernel

end ServiceMap
