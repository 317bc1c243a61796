import Mathlib.Data.List.Induction
import Mathlib.Data.Nat.Find
import Cinematic.Proofs.Packing.Greedy

/-!
# The search finds what there is

A search that compares all earlier positions with the present one, latest first, is easy to describe
and slow. The packer takes shortcuts: it looks only where the next two bytes stand, at no more than a
certain number of positions, stops at the first one out of reach, and stops when nothing longer can be
found. **The shortcuts do not change what is found** (`Cinematic.Packing.longestMatch_exact`).

The obstacle is the index, which is kept as links: from a pair to its latest position, and from each
position to the one before it with the same pair. The links have to lead along *all* earlier positions
of a pair, each once and the latest first, at every position that the packer comes to – also after a
copy, when several positions are entered at once. Since they are entered one by one and none is left
out, what a walk visits depends on nothing but the pair and the present position
(`Cinematic.Packing.Index.Lists`, `Cinematic.Packing.occurrences`). That the positions are strictly
decreasing is what makes it safe to stop at the first one out of reach, why the first of several longest
matches is the nearest, and why every walk comes to an end.

Where the packer searches, and with which links, is told along its own run: its decisions are those of
its searches, one by one (`Cinematic.Packing.toList_stepsOn`).
-/

namespace Cinematic.Packing

variable {data : Bytes} {pos : Nat} {index : Index}

/-! ### Pairs -/

theorem lt_size_of_pairAt? {key : Fin 65536} (pair : pairAt? data pos = some key) :
    pos + 1 < data.size := by
  rw [pairAt?] at pair
  split at pair
  · assumption
  · cases pair

theorem pairKey_inj {first second first' second' : UInt8} :
    pairKey first second = pairKey first' second' ↔ first = first' ∧ second = second' := by
  have := second.toNat_lt
  have := second'.toNat_lt
  rw [pairKey, pairKey, Fin.mk.injEq, ← UInt8.toNat_inj, ← UInt8.toNat_inj]
  omega

/-- The positions of a pair that is known from one of them. -/
theorem pairAt?_eq_some_iff {key : Fin 65536} (pair : pairAt? data pos = some key) {q : Nat}
    (earlier : q < pos) : pairAt? data q = some key ↔
      data.byteAt q = data.byteAt pos ∧ data.byteAt (q + 1) = data.byteAt (pos + 1) := by
  have inside := lt_size_of_pairAt? pair
  rw [pairAt?, if_pos inside] at pair
  rw [← pair, pairAt?, if_pos (by omega), Option.some.injEq, pairKey_inj]

/-! ### A search without shortcuts -/

/-- The length of what the bytes from two positions on have in common: no more than can be copied, and
no more than there are bytes left. -/
def commonLength (data : Bytes) (pos q : Nat) : Nat :=
  Nat.findGreatest (fun n => ∀ i < n, data.byteAt (q + i) = data.byteAt (pos + i))
    (min maxCopy (data.size - pos))

/-- **The candidates**: earlier positions within reach, where the same two bytes stand, latest first
and no more than are tried. The last byte has none. -/
def candidates (data : Bytes) (pos : Nat) : List Nat :=
  ((List.range pos).reverse.filter fun q => pos + 1 < data.size ∧ data.byteAt q = data.byteAt pos ∧
    data.byteAt (q + 1) = data.byteAt (pos + 1) ∧ pos - q ≤ maxDistance).take maxCandidates

theorem byteAt_agreement {q p limit : Nat} (less : agreement data q p limit < limit) :
    data.byteAt (q + agreement data q p limit) ≠ data.byteAt (p + agreement data q p limit) := by
  induction limit generalizing q p with
  | zero => exact absurd less (Nat.not_lt_zero _)
  | succ limit ih =>
    rw [agreement] at less ⊢
    split at less
    · next same =>
      have others := ih (Nat.lt_of_succ_lt_succ less)
      rw [if_pos same]
      rwa [Nat.add_right_comm q, Nat.add_right_comm p] at others
    · next differ =>
      rw [if_neg differ]
      exact differ

/-- **Counting the bytes that agree gives the common length.** -/
theorem agreement_eq_commonLength (data : Bytes) (pos q : Nat) :
    agreement data q pos (min maxCopy (data.size - pos)) = commonLength data pos q := by
  refine (Nat.findGreatest_eq_iff.2 ⟨agreement_le _ _ _ _, fun _ i => byteAt_of_lt_agreement, ?_⟩).symm
  intro n longer within agree
  exact byteAt_agreement (Nat.lt_of_lt_of_le longer within) (agree _ longer)

/-! ### The search -/

/-- A match that is replaced by a candidate if the candidate is longer. -/
def better (data : Bytes) (pos limit : Nat) (best : Match) (q : Nat) : Match :=
  if best.length < agreement data q pos limit then ⟨agreement data q pos limit, pos - q⟩ else best

/-- Nothing is longer than the limit. -/
theorem foldl_better_of_limit {limit : Nat} {best : Match} (full : best.length = limit)
    (qs : List Nat) : qs.foldl (better data pos limit) best = best := by
  induction qs with
  | nil => rfl
  | cons q qs ih =>
    have not_longer : ¬ best.length < agreement data q pos limit :=
      Nat.not_lt.2 (full ▸ agreement_le data q pos limit)
    rw [List.foldl_cons, better, if_neg not_longer, ih]

/-- **A walk along the links** that comes to an end, with the positions that it visits. -/
inductive Index.Walk (index : Index) : Option Nat → List Nat → Prop
  | ends : Walk index none []
  | visits {q : Nat} {qs : List Nat} :
    Walk index (index.previous? q) qs → Walk index (some q) (q :: qs)

/-- **The search stops early without missing anything**: it compares all candidates within reach that
the links lead to, up to the number of tries. -/
theorem Index.Walk.improve_eq_foldl {limit : Nat} (tries : Nat) {start : Option Nat} {qs : List Nat}
    (walk : index.Walk start qs) (best : Match) (descending : qs.Pairwise (· > ·)) :
    index.improve data pos limit tries start best =
      ((qs.filter (pos - · ≤ maxDistance)).take tries).foldl (better data pos limit) best := by
  induction tries generalizing start qs best with
  | zero => rfl
  | succ tries ih =>
    cases walk with
    | ends => rfl
    | @visits q older walk =>
      obtain ⟨latest, descending⟩ := List.pairwise_cons.1 descending
      rw [Index.improve]
      split
      · next reach =>
        rw [List.filter_cons_of_pos (by simpa using reach), List.take_succ_cons, List.foldl_cons,
          better]
        dsimp only
        split
        · split
          · next full => rw [foldl_better_of_limit full]
          · exact ih walk _ descending
        · exact ih walk _ descending
      · next far =>
        -- all others are older still
        have none : (q :: older).filter (pos - · ≤ maxDistance) = [] := by
          refine List.filter_eq_nil_iff.2 fun q' member => ?_
          rw [decide_eq_true_eq]
          rcases List.mem_cons.1 member with rfl | member
          · exact far
          · have := latest q' member
            omega
        rw [none]
        rfl

/-- **A candidate that no other is better than**: none is longer, and none as long is nearer. -/
def IsBest (data : Bytes) (pos : Nat) (qs : List Nat) (q : Nat) : Prop :=
  q ∈ qs ∧ ∀ q' ∈ qs, commonLength data pos q' ≤ commonLength data pos q ∧
    (commonLength data pos q' = commonLength data pos q → pos - q ≤ pos - q')

/-- **Comparing one candidate after the other finds the best.** -/
theorem exists_isBest {qs : List Nat} (some : qs ≠ []) (descending : qs.Pairwise (· > ·))
    (common : ∀ q ∈ qs, 0 < commonLength data pos q) :
    ∃ q, IsBest data pos qs q ∧
      qs.foldl (better data pos (min maxCopy (data.size - pos))) .none
        = ⟨commonLength data pos q, pos - q⟩ := by
  induction qs using List.reverseRecOn with
  | nil => exact absurd rfl some
  | append_singleton qs q ih =>
    obtain ⟨descending, -, older⟩ := List.pairwise_append.1 descending
    have last := common q (by simp)
    rw [List.foldl_append, List.foldl_cons, List.foldl_nil, better, agreement_eq_commonLength]
    rcases eq_or_ne qs [] with rfl | some
    · refine ⟨q, ⟨by simp, fun q' among => ?_⟩, if_pos last⟩
      rw [List.mem_singleton.1 among]
      exact ⟨Nat.le_refl _, fun _ => Nat.le_refl _⟩
    · obtain ⟨best, ⟨member, longest⟩, found⟩ :=
        ih some descending fun q member => common q (List.mem_append_left _ member)
      rw [found]
      split
      · next longer =>
        -- the oldest candidate so far is longer than all the others
        refine ⟨q, ⟨by simp, fun q' among => ?_⟩, rfl⟩
        rcases List.mem_append.1 among with among | among
        · have shorter := Nat.lt_of_le_of_lt (longest q' among).1 longer
          exact ⟨Nat.le_of_lt shorter, fun same => absurd same (Nat.ne_of_lt shorter)⟩
        · rw [List.mem_singleton.1 among]
          exact ⟨Nat.le_refl _, fun _ => Nat.le_refl _⟩
      · next shorter =>
        refine ⟨best, ⟨List.mem_append_left _ member, fun q' among => ?_⟩, rfl⟩
        rcases List.mem_append.1 among with among | among
        · exact longest q' among
        · have := older best member q (by simp)
          rw [List.mem_singleton.1 among]
          exact ⟨Nat.le_of_not_lt shorter, fun _ => by omega⟩

/-! ### What the links lead to -/

/-- **The earlier positions of a pair**, latest first. -/
def occurrences (data : Bytes) (pos : Nat) (key : Fin 65536) : List Nat :=
  (List.range pos).reverse.filter (pairAt? data · = some key)

theorem occurrences_succ (data : Bytes) (pos : Nat) (key : Fin 65536) :
    occurrences data (pos + 1) key =
      if pairAt? data pos = some key then pos :: occurrences data pos key
      else occurrences data pos key := by
  simp [occurrences, List.range_succ, List.filter_cons]

theorem descending_reverse_range (pos : Nat) : (List.range pos).reverse.Pairwise (· > ·) :=
  List.pairwise_reverse.2 List.pairwise_lt_range

theorem descending_occurrences (data : Bytes) (pos : Nat) (key : Fin 65536) :
    (occurrences data pos key).Pairwise (· > ·) :=
  (descending_reverse_range pos).filter _

theorem lt_of_mem_occurrences {key : Fin 65536} {q : Nat} (member : q ∈ occurrences data pos key) :
    q < pos := by
  simpa using (List.mem_filter.1 member).1

/-- The candidates are those positions of the pair that are within reach. -/
theorem candidates_eq {key : Fin 65536} (pair : pairAt? data pos = some key) :
    candidates data pos =
      ((occurrences data pos key).filter (pos - · ≤ maxDistance)).take maxCandidates := by
  have inside := lt_size_of_pairAt? pair
  rw [candidates, occurrences, List.filter_filter]
  congr 1
  refine List.filter_congr fun q member => ?_
  have earlier : q < pos := by simpa using member
  simp only [pairAt?_eq_some_iff pair earlier, inside, true_and, Bool.decide_and]
  ac_rfl

theorem candidates_of_last (last : pairAt? data pos = none) : candidates data pos = [] := by
  have outside : ¬ pos + 1 < data.size := by simpa [pairAt?] using last
  simp [candidates, outside]

theorem descending_candidates (data : Bytes) (pos : Nat) :
    (candidates data pos).Pairwise (· > ·) :=
  ((descending_reverse_range pos).filter _).take

/-- Candidates have the pair in common. -/
theorem commonLength_pos {q : Nat} (member : q ∈ candidates data pos) :
    0 < commonLength data pos q := by
  obtain ⟨inside, first, -⟩ :=
    of_decide_eq_true (List.mem_filter.1 (List.mem_of_mem_take member)).2
  refine Nat.le_findGreatest (m := 1) (by rw [maxCopy]; omega) fun i less => ?_
  rw [Nat.lt_one_iff.1 less]
  exact first

/-- **The links lead to all positions before the present**, and to no others: from each pair along its
earlier positions, each once and the latest first, to an end. -/
structure Index.Lists (index : Index) (data : Bytes) (pos : Nat) : Prop where
  room : index.before.size = data.size
  below : index.Below pos
  walk (key : Fin 65536) : index.Walk (index.latest.get key) (occurrences data pos key)

namespace Index

/-- A walk is the same when a position is entered that it does not visit. -/
theorem Walk.insert {start : Option Nat} {qs : List Nat} (walk : index.Walk start qs)
    (elsewhere : pos ∉ qs) : (index.insert data pos).Walk start qs := by
  induction walk with
  | ends => exact .ends
  | @visits q qs walk ih =>
    obtain ⟨other, elsewhere⟩ := not_or.1 (mt List.mem_cons.2 elsewhere)
    refine .visits ?_
    rw [previous?_insert_of_ne index data (Ne.symm other)]
    exact ih elsewhere

theorem lists_empty (data : Bytes) : (empty data).Lists data 0 where
  room := Array.size_replicate
  below := below_empty data 0
  walk key := by
    rw [latest_empty]
    exact .ends

theorem Lists.insert (lists : index.Lists data pos) :
    (index.insert data pos).Lists data (pos + 1) where
  room := (size_before_insert index data pos).trans lists.room
  below := lists.below.insert data
  walk key := by
    have elsewhere : pos ∉ occurrences data pos key := fun member =>
      Nat.lt_irrefl pos (lt_of_mem_occurrences member)
    have older : (index.insert data pos).Walk (index.latest.get key) (occurrences data pos key) :=
      (lists.walk key).insert elsewhere
    rw [occurrences_succ, latest_insert]
    split
    · next pair =>
      -- one link further is where the walk began before
      have inside := Nat.lt_of_succ_lt (lt_size_of_pairAt? pair)
      refine .visits ?_
      rwa [previous?_insert_self pair (lists.room ▸ inside)]
    · exact older

theorem Lists.insertMany (lists : index.Lists data pos) (count : Nat) :
    (index.insertMany data pos count).Lists data (pos + count) := by
  induction count generalizing index pos with
  | zero => exact lists
  | succ count ih =>
    rw [Index.insertMany, Nat.add_comm count 1, ← Nat.add_assoc]
    exact ih lists.insert

/-- The shortcuts of the search, all at once. -/
theorem Lists.longestMatch_eq (lists : index.Lists data pos) :
    index.longestMatch data pos =
      (candidates data pos).foldl (better data pos (min maxCopy (data.size - pos))) .none := by
  rw [longestMatch]
  split
  · next last =>
    rw [candidates_of_last last]
    rfl
  · next key pair =>
    rw [(lists.walk key).improve_eq_foldl maxCandidates .none (descending_occurrences data pos key),
      candidates_eq pair]

end Index

/-! ### Where the packer searches -/

/-- **The searches of the packer** from a position on: where it looks for a match, and the index that it
has there. -/
def searchesOn (data : Bytes) (pos : Nat) (index : Index) : List (Nat × Index) :=
  if pos < data.size then
    let m := index.longestMatch data pos
    if worthwhile : m.Worthwhile then
      (pos, index) :: searchesOn data (pos + m.length) (index.insertMany data pos m.length)
    else (pos, index) :: searchesOn data (pos + 1) (index.insert data pos)
  else []
termination_by data.size - pos
decreasing_by
  · have : 0 < (index.longestMatch data pos).length := worthwhile.length_pos
    omega
  · omega

/-- All searches for some data. -/
def searches (data : Bytes) : List (Nat × Index) := searchesOn data 0 (.empty data)

/-- What is decided after a search: a worthwhile match is copied, otherwise the byte is kept. -/
def decision (data : Bytes) (search : Nat × Index) : Step :=
  let m := search.2.longestMatch data search.1
  if m.Worthwhile then .copy m else .keep (data.byteAt search.1)

theorem searchesOn_of_worthwhile (inside : pos < data.size)
    (worthwhile : (index.longestMatch data pos).Worthwhile) :
    searchesOn data pos index = (pos, index) ::
      searchesOn data (pos + (index.longestMatch data pos).length)
        (index.insertMany data pos (index.longestMatch data pos).length) := by
  rw [searchesOn, if_pos inside]
  exact dif_pos worthwhile

theorem searchesOn_of_worthless (inside : pos < data.size)
    (worthless : ¬ (index.longestMatch data pos).Worthwhile) :
    searchesOn data pos index = (pos, index) :: searchesOn data (pos + 1) (index.insert data pos) := by
  rw [searchesOn, if_pos inside]
  exact dif_neg worthless

/-- **Every decision is made after a search of its own**, and every search is followed by one. -/
theorem toList_stepsOn (data : Bytes) (pos : Nat) (index : Index) (made : Array Step) :
    (stepsOn data pos index made).toList =
      made.toList ++ (searchesOn data pos index).map (decision data) := by
  fun_induction stepsOn data pos index made with
  | case1 pos index made inside m worthwhile ih =>
    have copies : decision data (pos, index) = .copy m := if_pos worthwhile
    rw [ih, searchesOn_of_worthwhile inside worthwhile, List.map_cons, copies]
    simp [m]
  | case2 pos index made inside m worthless ih =>
    have keeps : decision data (pos, index) = .keep data[pos] := by
      rw [← Bytes.byteAt_eq_getElem inside]
      exact if_neg worthless
    rw [ih, searchesOn_of_worthless inside worthless, List.map_cons, keeps]
    simp
  | case3 pos index made outside => rw [searchesOn, if_neg outside, List.map_nil, List.append_nil]

theorem mem_searchesOn (inside : pos < data.size) : (pos, index) ∈ searchesOn data pos index := by
  rw [searchesOn, if_pos inside]
  dsimp only
  split <;> exact List.mem_cons_self

/-- **Whatever has been copied or kept, the links lead to all positions before the present**, at every
search. -/
theorem lists_of_mem_searchesOn {search : Nat × Index} (lists : index.Lists data pos)
    (member : search ∈ searchesOn data pos index) :
    search.1 < data.size ∧ search.2.Lists data search.1 := by
  fun_induction searchesOn data pos index with
  | case1 pos index inside m worthwhile ih =>
    rcases List.mem_cons.1 member with rfl | member
    · exact ⟨inside, lists⟩
    · exact ih (lists.insertMany _) member
  | case2 pos index inside m worthless ih =>
    rcases List.mem_cons.1 member with rfl | member
    · exact ⟨inside, lists⟩
    · exact ih lists.insert member
  | case3 pos index outside => exact absurd member List.not_mem_nil

/-- **The search of the packer equals a search without shortcuts.** Its decisions are those of its
searches. At every one of them it finds nothing if there are no candidates, and otherwise the longest of
them, and of those that are as long the nearest. What it finds is what follows, and it does not reach
beyond the data. A walk along the links of any pair visits all of its earlier positions once, the latest
first, and comes to an end. -/
theorem longestMatch_exact (data : Bytes) :
    steps data = (searches data).map (decision data) ∧
    ∀ pos index, (pos, index) ∈ searches data →
      let m := index.longestMatch data pos
      let found := candidates data pos
      (m = .none ↔ found = []) ∧
      (found ≠ [] → ∃ q, IsBest data pos found q ∧ m = ⟨commonLength data pos q, pos - q⟩) ∧
      (pos + m.length ≤ data.size ∧
        ∀ i < m.length, data.byteAt (pos - m.distance + i) = data.byteAt (pos + i)) ∧
      ∀ key, index.Walk (index.latest.get key) (occurrences data pos key) := by
  refine ⟨(toList_stepsOn data 0 (.empty data) #[]).trans (by simp [searches]), ?_⟩
  intro pos index member m found
  obtain ⟨inside, lists⟩ := lists_of_mem_searchesOn (Index.lists_empty data) member
  have holds := lists.below.holds_longestMatch data
  have within : pos + m.length ≤ data.size :=
    Nat.add_le_of_le_sub' (Nat.le_of_lt inside) (holds.length_le.trans (Nat.min_le_right _ _))
  have same : m = found.foldl (better data pos (min maxCopy (data.size - pos))) .none :=
    lists.longestMatch_eq
  have best (some : found ≠ []) :
      ∃ q, IsBest data pos found q ∧ m = ⟨commonLength data pos q, pos - q⟩ :=
    same ▸ exists_isBest some (descending_candidates data pos) fun q => commonLength_pos
  refine ⟨⟨fun none => ?_, fun none => ?_⟩, best, ⟨within, holds.agree⟩, lists.walk⟩
  · by_contra some
    obtain ⟨q, ⟨member, -⟩, is⟩ := best some
    have length := congrArg Match.length (none.symm.trans is)
    exact Nat.ne_of_lt (commonLength_pos member) length
  · rw [same, none]
    rfl

/-- Of four bytes that are a pair twice, the packer keeps the first pair and then finds it. -/
theorem longestMatch_of_pair_twice :
    let data : Bytes := #[1, 2, 1, 2]
    ∃ index, (2, index) ∈ searches data ∧ index.longestMatch data 2 = ⟨2, 2⟩ := by
  intro data
  have worthless : ¬ Match.none.Worthwhile := by decide
  have start : (0, .empty data) ∈ searches data := mem_searchesOn (by decide)
  have first : (Index.empty data).longestMatch data 0 = .none :=
    ((longestMatch_exact data).2 _ _ start).1.2 (by decide)
  have after : searches data = _ := searchesOn_of_worthless (by decide) (first ▸ worthless)
  have next : (1, (Index.empty data).insert data 0) ∈ searches data := by
    rw [after]
    exact List.mem_cons_of_mem _ (mem_searchesOn (by decide))
  have second : ((Index.empty data).insert data 0).longestMatch data 1 = .none :=
    ((longestMatch_exact data).2 _ _ next).1.2 (by decide)
  have there : (2, ((Index.empty data).insert data 0).insert data 1) ∈ searches data := by
    rw [after, searchesOn_of_worthless (by decide) (second ▸ worthless)]
    exact List.mem_cons_of_mem _ (List.mem_cons_of_mem _ (mem_searchesOn (by decide)))
  obtain ⟨q, ⟨member, -⟩, found⟩ := ((longestMatch_exact data).2 _ _ there).2.1 (by decide)
  have only : q = 0 := by
    have candidates : candidates data 2 = [0] := by decide
    exact List.mem_singleton.1 (candidates ▸ member)
  have length : commonLength data 2 0 = 2 := by decide
  rw [only, length] at found
  exact ⟨_, there, found⟩

end Cinematic.Packing
