import ServiceMap.Proofs.Link.Calls

/-!
# Merging links

What collections of links come to is known by their shares, one after the other: the pairs come in where they first
occur, and each gets the sums of its calls and errors. What is merged adds the same shares, pair by pair, as all it was
made of, to any tally. So merges may be nested in every way, a merge of a merge changes nothing, and a tally to which
collections are added in turn has at each time the links of their merge.
-/

namespace ServiceMap

/-! ### What links come to -/

namespace Tally

theorem addLinks_eq (t : Tally) (links : List Link) : t.addLinks links = t.addAll (links.map Link.share) := by
  rw [addLinks, addAll, List.foldl_map]
  rfl

theorem addLinks_linksOfShares {t : Tally} (h : t.pairs.Nodup) (l : List Share) :
    t.addLinks (linksOfShares l) = t.addAll l := by
  rw [addLinks_eq, share_linksOfShares, addAll_shares h]

theorem foldl_addLinks (t : Tally) (collections : List (List Link)) :
    collections.foldl addLinks t = t.addAll (collections.flatten.map Link.share) := by
  induction collections generalizing t with
  | nil => rfl
  | cons links collections ih => rw [List.foldl_cons, ih, addLinks_eq, List.flatten_cons, List.map_append, addAll_append]

theorem foldl_addLinks_linksOfShares {t : Tally} (h : t.pairs.Nodup) (parts : List (List Share)) :
    (parts.map linksOfShares).foldl addLinks t = t.addAll parts.flatten := by
  induction parts generalizing t with
  | nil => rfl
  | cons l parts ih =>
    rw [List.map_cons, List.foldl_cons, addLinks_linksOfShares h, ih (nodup_pairs_addAll h l), List.flatten_cons,
      addAll_append]

theorem merge_eq {collections : List (List Link)} (h : ∀ link ∈ collections.flatten, link.IsSound) :
    merge collections = .ok (linksOfShares (collections.flatten.map Link.share)) := by
  rw [merge, foldl_addLinks]
  exact links_addAll (List.forall_mem_map.mpr h)

end Tally

/-- The links are the sums of some others: one link for each pair, in the order in which the pairs first occur, with as
many calls and errors as the others have for the pair. -/
structure IsSumOf (sums links : List Link) : Prop where
  pairs_eq : sums.map Link.pair = (links.map Link.pair).eraseDups
  nodup_pairs : (sums.map Link.pair).Nodup
  calls_eq : ∀ sum ∈ sums, sum.calls = ((links.filter (·.pair = sum.pair)).map Link.calls).sum
  errors_eq : ∀ sum ∈ sums, sum.errors = ((links.filter (·.pair = sum.pair)).map Link.errors).sum

theorem sumFor_map_share (pair : ServicePair) (links : List Link) : Share.sumFor pair (links.map Link.share) =
    ⟨((links.filter (·.pair = pair)).map Link.calls).sum, ((links.filter (·.pair = pair)).map Link.errors).sum⟩ := by
  have hcounts : ((links.map Link.share).filter (·.1 == pair)).map (·.2) =
      (links.filter (·.pair = pair)).map fun link => ⟨link.calls, link.errors⟩ := by
    rw [List.filter_map, List.map_map]
    rfl
  rw [Share.sumFor, hcounts, Counts.sum_eq, List.map_map, List.map_map]
  rfl

theorem isSumOf_linksOfShares (links : List Link) : IsSumOf (linksOfShares (links.map Link.share)) links := by
  have hcounts : ∀ sum ∈ linksOfShares (links.map Link.share),
      sum.share.2 = Share.sumFor sum.pair (links.map Link.share) := by
    intro sum hsum
    obtain ⟨share, hshare, rfl⟩ := List.mem_map.mp hsum
    exact (Tally.mem_shares_addAll.mp hshare).2
  have hpairs : (linksOfShares (links.map Link.share)).map Link.pair = (links.map Link.pair).eraseDups := by
    rw [map_pair_linksOfShares, Tally.pairs_addAll, Tally.pairs_empty, withNew_nil_left, List.map_map]
    rfl
  refine ⟨hpairs, nodup_pairs_linksOfShares _, fun sum hsum => ?_, fun sum hsum => ?_⟩
  · exact congrArg Counts.calls ((hcounts sum hsum).trans (sumFor_map_share sum.pair links))
  · exact congrArg Counts.errors ((hcounts sum hsum).trans (sumFor_map_share sum.pair links))

/-! ### Merges of merges -/

/-- Collections, and merges of these and of other merges. -/
inductive Bracketing where
  | collection (links : List Link)
  | merged (parts : List Bracketing)

namespace Bracketing

mutual

/-- What comes of it when every merge is done. -/
def links : Bracketing → Except Failure (List Link)
  | collection links => .ok links
  | merged parts => do Tally.merge (← linksOfAll parts)

def linksOfAll : List Bracketing → Except Failure (List (List Link))
  | [] => .ok []
  | part :: parts => do return (← part.links) :: (← linksOfAll parts)

end

mutual

def collections : Bracketing → List (List Link)
  | collection links => [links]
  | merged parts => collectionsOfAll parts

def collectionsOfAll : List Bracketing → List (List Link)
  | [] => []
  | part :: parts => part.collections ++ collectionsOfAll parts

end

mutual

/-- However collections are bracketed, what comes of them adds to any tally what they add. To any, as the parts of a
merge are added one after the other. -/
theorem links_eq : ∀ b : Bracketing, (∀ link ∈ b.collections.flatten, link.IsSound) →
    ∃ result, b.links = .ok result ∧
      ∀ t : Tally, t.pairs.Nodup → t.addLinks result = t.addAll (b.collections.flatten.map Link.share)
  | collection links, _ => by
    rw [collections, List.flatten_singleton]
    exact ⟨links, rfl, fun t _ => t.addLinks_eq links⟩
  | merged parts, hsound => by
    obtain ⟨results, hresults, hsame⟩ := linksOfAll_eq parts hsound
    refine ⟨linksOfShares ((collectionsOfAll parts).flatten.map Link.share), ?_,
      fun t ht => Tally.addLinks_linksOfShares ht _⟩
    simp only [links, hresults, bind, Except.bind]
    rw [Tally.merge, hsame {} List.nodup_nil]
    exact Tally.links_addAll (List.forall_mem_map.mpr hsound)

theorem linksOfAll_eq : ∀ parts : List Bracketing, (∀ link ∈ (collectionsOfAll parts).flatten, link.IsSound) →
    ∃ results, linksOfAll parts = .ok results ∧ ∀ t : Tally, t.pairs.Nodup →
      results.foldl Tally.addLinks t = t.addAll ((collectionsOfAll parts).flatten.map Link.share)
  | [], _ => ⟨[], rfl, fun _ _ => rfl⟩
  | part :: parts, hsound => by
    rw [collectionsOfAll, List.flatten_append, List.forall_mem_append] at hsound
    obtain ⟨result, hresult, hfirst⟩ := links_eq part hsound.1
    obtain ⟨results, hresults, hrest⟩ := linksOfAll_eq parts hsound.2
    refine ⟨result :: results, ?_, fun t ht => ?_⟩
    · simp only [linksOfAll, hresult, hresults, bind, Except.bind, pure, Except.pure]
    · rw [List.foldl_cons, hfirst t ht, hrest _ (Tally.nodup_pairs_addAll ht _), collectionsOfAll, List.flatten_append,
        List.map_append, Tally.addAll_append]

end

theorem links_merged {parts : List Bracketing} (h : ∀ link ∈ (merged parts).collections.flatten, link.IsSound) :
    (merged parts).links = Tally.merge (merged parts).collections := by
  obtain ⟨results, hresults, hsame⟩ := linksOfAll_eq parts h
  simp only [links, hresults, bind, Except.bind]
  rw [Tally.merge, Tally.merge, hsame {} List.nodup_nil, Tally.foldl_addLinks]
  rfl

end Bracketing

/-! ### Merging step by step -/

/-- What may be asked of a merger: to add a collection, or for the links of what was added so far. -/
inductive MergeRequest where
  | add (links : List Link)
  | merged
deriving Repr, DecidableEq

def MergeRequest.added? : MergeRequest → Option (List Link)
  | add links => some links
  | merged => none

namespace Tally

def handle (t : Tally) : MergeRequest → Tally × List (Except Failure (List Link))
  | .add links => (t.addLinks links, [])
  | .merged => (t, [t.links])

def answers (t : Tally) : List MergeRequest → List (Except Failure (List Link))
  | [] => []
  | request :: requests => (t.handle request).2 ++ (t.handle request).1.answers requests

theorem handle_fst (t : Tally) (request : MergeRequest) :
    (t.handle request).1 = request.added?.toList.foldl addLinks t := by
  cases request <;> rfl

theorem answers_append (t : Tally) (front back : List MergeRequest) : t.answers (front ++ back) =
    t.answers front ++ ((front.filterMap MergeRequest.added?).foldl addLinks t).answers back := by
  induction front generalizing t with
  | nil => rfl
  | cons request front ih =>
    have hadded : (request :: front).filterMap MergeRequest.added? =
        request.added?.toList ++ front.filterMap MergeRequest.added? := by
      cases request <;> rfl
    rw [List.cons_append, answers, answers, ih, handle_fst, hadded, List.foldl_append, List.append_assoc]

end Tally

/-! ### The laws of merging -/

/-- The collections in another order, and the links of each of them in another order. -/
def AreShuffled (collections shuffled : List (List Link)) : Prop :=
  ∃ reordered, collections.Perm reordered ∧ List.Forall₂ List.Perm reordered shuffled

theorem AreShuffled.flatten_perm {collections shuffled : List (List Link)} (h : AreShuffled collections shuffled) :
    collections.flatten.Perm shuffled.flatten := by
  obtain ⟨reordered, hcollections, hlinks⟩ := h
  exact hcollections.flatten.trans (List.Perm.flatten_congr hlinks)

/-- Links that were made can be merged, and the merge has their sums. It is the same for every bracketing of the
collections into merges, the same but for the order of the pairs when collections and links are shuffled, and it stays
as it is when it is merged again. A merger that was given the collections, with any questions in between, answers with
it, and is not changed by being asked. -/
theorem Tally.merge_laws {collections : List (List Link)} (hmade : ∀ links ∈ collections, ∀ link ∈ links, link.IsMade) :
    ∃ merged, merge collections = .ok merged ∧ IsSumOf merged collections.flatten ∧
      (∀ parts, (Bracketing.merged parts).collections = collections → (Bracketing.merged parts).links = .ok merged) ∧
      (∀ shuffled, AreShuffled collections shuffled → ∃ merged', merge shuffled = .ok merged' ∧ merged.Perm merged') ∧
      merge [merged] = .ok merged ∧
      ∀ front back, front.filterMap MergeRequest.added? = collections → ∃ later,
        ({} : Tally).answers (front ++ .merged :: back) = ({} : Tally).answers front ++ .ok merged :: later ∧
        ({} : Tally).answers (front ++ back) = ({} : Tally).answers front ++ later := by
  have hsound : ∀ link ∈ collections.flatten, link.IsSound := by
    intro link hlink
    obtain ⟨links, hlinks, hmem⟩ := List.mem_flatten.mp hlink
    exact (hmade links hlinks link hmem).isSound
  have hmerge := merge_eq hsound
  refine ⟨_, hmerge, isSumOf_linksOfShares _, ?_, ?_, ?_, ?_⟩
  · rintro parts rfl
    rw [Bracketing.links_merged hsound, hmerge]
  · intro shuffled h
    refine ⟨_, merge_eq fun link hlink => hsound link (h.flatten_perm.mem_iff.mpr hlink), ?_⟩
    exact linksOfShares_perm (h.flatten_perm.map _)
  -- The merge has each pair once, with its sums, so adding it again adds the shares of all collections.
  · rw [merge, List.foldl_cons, addLinks_linksOfShares (t := {}) List.nodup_nil, ← foldl_addLinks, List.foldl_nil]
    exact hmerge
  -- The question leaves the tally as it is, so what is answered later is what `back` alone is answered.
  · rintro front back rfl
    refine ⟨_, ?_, answers_append {} front back⟩
    rw [answers_append, answers, ← hmerge]
    rfl

/-- The links of two days, with a pair that both of them have. -/
def twoDays : List (List Link) := [[⟨"web", "api", 2, 1⟩, ⟨"api", "db", 1, 0⟩], [⟨"web", "api", 3, 0⟩]]

def twoDaysBack : List (List Link) := twoDays.reverse.map List.reverse

-- A merge of the first day, a merge of nothing, and the second day.
def twoDaysBracketed : List Bracketing :=
  [.merged (twoDays.take 1 |>.map .collection), .merged [], .merged (twoDays.drop 1 |>.map .collection)]

def twoDaysInTurn : List MergeRequest := [.add twoDays[0], .merged, .add twoDays[1]]

theorem Tally.merge_laws_twoDays : (∀ links ∈ twoDays, ∀ link ∈ links, link.IsMade) ∧
    ∃ merged, merge twoDays = .ok merged ∧ IsSumOf merged twoDays.flatten ∧
      (Bracketing.merged twoDaysBracketed).links = .ok merged ∧
      (∃ merged', merge twoDaysBack = .ok merged' ∧ merged.Perm merged') ∧ merge [merged] = .ok merged ∧
      ∃ later, ({} : Tally).answers (twoDaysInTurn ++ .merged :: [.add twoDays[0], .merged]) =
          ({} : Tally).answers twoDaysInTurn ++ .ok merged :: later ∧
        ({} : Tally).answers (twoDaysInTurn ++ [.add twoDays[0], .merged]) =
          ({} : Tally).answers twoDaysInTurn ++ later := by
  have hmade : ∀ links ∈ twoDays, ∀ link ∈ links, link.IsMade := by
    intro links hlinks link hlink
    have hsound : ∀ links ∈ twoDays, ∀ link ∈ links, link.IsSound := by decide +kernel
    exact ⟨_, _, _, _, (hsound links hlinks link hlink).make_eq⟩
  obtain ⟨merged, hmerge, hsums, hbracketed, hshuffled, hagain, hasked⟩ := merge_laws hmade
  have hback : AreShuffled twoDays twoDaysBack :=
    ⟨twoDays.reverse, twoDays.reverse_perm.symm, List.forall₂_map_right_iff.mpr
      (List.forall₂_same.mpr fun links _ => links.reverse_perm.symm)⟩
  exact ⟨hmade, merged, hmerge, hsums, hbracketed twoDaysBracketed rfl, hshuffled twoDaysBack hback, hagain,
    hasked twoDaysInTurn _ rfl⟩

end ServiceMap
