import LedgerClient.Proofs.Threshold.Packed

/-!
# Signatures put together

A threshold signature is put together from signatures with the positions of their signers. The pairs
may come in any order, since they are sorted, and the pairs of a threshold signature are always
sorted. So a list of pairs gives exactly the threshold signature that has these pairs
(`ofIndexed_eq_ok_iff`), and gives one if its positions are all different and below 32
(`ofIndexed_isOk_iff`). The order of the pairs shows neither in the signature nor in the fault that
is reported (`ofIndexed_perm`).
-/

set_option autoImplicit false

namespace LedgerClient.ThresholdSignature

/-- The positions of the signers, as the numbers that they are given by. -/
def indices (s : ThresholdSignature) : List UInt8 := s.signers.map fun i => UInt8.ofNat i.val

/-- The signatures, each with the position of its signer. -/
def indexed (s : ThresholdSignature) : List (Signature × UInt8) := s.signatures.zip s.indices

/-- The pairs in the order of the positions. Those with the same position stay in their order. -/
def sorted (entries : List (Signature × UInt8)) : List (Signature × UInt8) :=
  entries.mergeSort fun a b => a.2 ≤ b.2

variable {entries other : List (Signature × UInt8)} {s : ThresholdSignature}

/-- A place below 32 is a byte. -/
theorem toNat_ofNat_place {place : Nat} (small : place < 32) : (UInt8.ofNat place).toNat = place :=
  UInt8.toNat_ofNat_of_lt' (Nat.lt_trans small (by decide))

section Positions

variable {positions : List Bitmap.Position} {indices : List UInt8}

/-- Positions are read off the numbers that they are given by. -/
theorem map_ofNat_of_map_toNat (places : positions.map Fin.val = indices.map UInt8.toNat) :
    positions.map (fun i => UInt8.ofNat i.val) = indices := by
  have same := congrArg (List.map UInt8.ofNat) places
  rw [List.map_map, List.map_map] at same
  have number : UInt8.ofNat ∘ UInt8.toNat = id := by
    funext index
    exact UInt8.ofNat_toNat
  rw [number, List.map_id] at same
  exact same

theorem map_toNat_map_ofNat (positions : List Bitmap.Position) :
    (positions.map fun i => UInt8.ofNat i.val).map UInt8.toNat = positions.map Fin.val := by
  rw [List.map_map]
  refine List.map_congr_left fun i _ => ?_
  exact toNat_ofNat_place i.isLt

/-- Numbers below 32 are those of positions. -/
theorem exists_positions (small : ∀ index ∈ indices, index.toNat < 32) :
    ∃ positions : List Bitmap.Position, positions.map Fin.val = indices.map UInt8.toNat := by
  refine ⟨indices.pmap (fun index low => ⟨index.toNat, low⟩) small, ?_⟩
  rw [List.map_pmap, List.pmap_eq_map]

end Positions

/-! ### The pairs of a signature -/

theorem toNat_lt_of_mem_indices {index : UInt8} (mem : index ∈ s.indices) : index.toNat < 32 := by
  have given : index.toNat ∈ s.signers.map Fin.val := by
    rw [← map_toNat_map_ofNat]
    exact List.mem_map_of_mem mem
  obtain ⟨i, -, place⟩ := List.mem_map.1 given
  rw [← place]
  exact i.isLt

/-- The positions are in increasing order, also as numbers. -/
theorem pairwise_indices (s : ThresholdSignature) : s.indices.Pairwise (· < ·) := by
  refine List.pairwise_map.2 (s.bitmap.pairwise_toList.imp ?_)
  intro i j less
  rw [UInt8.lt_iff_toNat_lt, toNat_ofNat_place i.isLt, toNat_ofNat_place j.isLt]
  exact less

theorem nodup_indices (s : ThresholdSignature) : s.indices.Nodup :=
  s.pairwise_indices.imp UInt8.ne_of_lt

/-- No signature is without a position, and no position without a signature. -/
theorem length_indices (wellFormed : s.WellFormed) : s.indices.length = s.signatures.length := by
  simp [indices, signers, wellFormed.2]

theorem map_fst_indexed (wellFormed : s.WellFormed) : s.indexed.map Prod.fst = s.signatures :=
  List.map_fst_zip (Nat.le_of_eq (length_indices wellFormed).symm)

theorem map_snd_indexed (wellFormed : s.WellFormed) : s.indexed.map Prod.snd = s.indices :=
  List.map_snd_zip (Nat.le_of_eq (length_indices wellFormed))

theorem pairwise_indexed (wellFormed : s.WellFormed) :
    s.indexed.Pairwise fun a b => a.2 < b.2 := by
  have increasing := s.pairwise_indices
  rw [← map_snd_indexed wellFormed] at increasing
  exact List.pairwise_map.1 increasing

/-! ### The sorted pairs -/

theorem sorted_perm (entries : List (Signature × UInt8)) : (sorted entries).Perm entries :=
  List.mergeSort_perm entries _

theorem pairwise_sorted (entries : List (Signature × UInt8)) :
    (sorted entries).Pairwise fun a b => a.2 ≤ b.2 := by
  have trans : ∀ a b c : Signature × UInt8,
      decide (a.2 ≤ b.2) = true → decide (b.2 ≤ c.2) = true → decide (a.2 ≤ c.2) = true := by
    intro a b c first second
    exact decide_eq_true (UInt8.le_trans (of_decide_eq_true first) (of_decide_eq_true second))
  have total : ∀ a b : Signature × UInt8, (decide (a.2 ≤ b.2) || decide (b.2 ≤ a.2)) = true := by
    intro a b
    rw [Bool.or_eq_true, decide_eq_true_iff, decide_eq_true_iff]
    exact UInt8.le_total a.2 b.2
  exact (List.pairwise_mergeSort trans total entries).imp of_decide_eq_true

/-- Pairs with different positions are in strictly increasing order after sorting. -/
theorem pairwise_lt_sorted (nodup : (entries.map Prod.snd).Nodup) :
    (sorted entries).Pairwise fun a b => a.2 < b.2 := by
  have different : ((sorted entries).map Prod.snd).Nodup :=
    ((sorted_perm entries).map Prod.snd).nodup_iff.2 nodup
  refine (pairwise_sorted entries).imp₂ ?_ (List.pairwise_map.1 different)
  intro a b ordered distinct
  exact UInt8.lt_of_le_of_ne ordered distinct

/-- Pairs that are in strictly increasing order are what sorting makes of them in any order. -/
theorem eq_sorted {pairs : List (Signature × UInt8)}
    (increasing : pairs.Pairwise fun a b => a.2 < b.2) (perm : pairs.Perm entries) :
    pairs = sorted entries := by
  have nodup : (entries.map Prod.snd).Nodup := by
    rw [← (perm.map Prod.snd).nodup_iff]
    exact List.pairwise_map.2 (increasing.imp UInt8.ne_of_lt)
  refine (perm.trans (sorted_perm entries).symm).eq_of_pairwise ?_ increasing
    (pairwise_lt_sorted nodup)
  intro a b _ _ less greater
  exact absurd (UInt8.lt_trans less greater) (UInt8.lt_irrefl a.2)

/-- The positions after sorting do not depend on the order before, even if some are the same. -/
theorem map_snd_sorted_congr (perm : entries.Perm other) :
    (sorted entries).map Prod.snd = (sorted other).map Prod.snd := by
  have same : (sorted entries).Perm (sorted other) :=
    (sorted_perm entries).trans (perm.trans (sorted_perm other).symm)
  refine (same.map Prod.snd).eq_of_pairwise ?_ (List.pairwise_map.2 (pairwise_sorted entries))
    (List.pairwise_map.2 (pairwise_sorted other))
  intro a b _ _ less greater
  exact UInt8.le_antisymm less greater

/-! ### Putting together -/

/-- Where there are pairs, it is enough to collect their positions in increasing order. -/
theorem ofIndexed_of_some (some : entries ≠ []) :
    ofIndexed entries = (collect .empty ((sorted entries).map Prod.snd)).map fun bitmap =>
      ⟨(sorted entries).map Prod.fst, bitmap⟩ := by
  have nonempty : ¬ entries.isEmpty = true := fun none => some (List.isEmpty_iff.1 none)
  simp only [ofIndexed, if_neg nonempty, sorted]
  cases collect .empty ((entries.mergeSort fun a b => a.2 ≤ b.2).map Prod.snd) with
  | error fault => rfl
  | ok bitmap => rfl

/-- All the positions of a signature can be collected, and give its bitmap. -/
theorem collect_indices (s : ThresholdSignature) : collect .empty s.indices = .ok s.bitmap := by
  refine collect_eq_ok_iff.2 ⟨s.signers, (map_toNat_map_ofNat s.signers).symm,
    s.bitmap.nodup_toList, fun i _ => Bitmap.contains_empty i, ?_⟩
  apply Bitmap.ext_contains
  intro i
  rw [Bool.eq_iff_iff, Bitmap.contains_foldl_insert]
  simp [signers]

/-- Numbers that have been collected in increasing order are read off the bitmap again. -/
theorem indices_of_collect {numbers : List UInt8} {signatures : List Signature} {bitmap : Bitmap}
    (ordered : numbers.Pairwise (· ≤ ·)) (collected : collect .empty numbers = .ok bitmap) :
    indices ⟨signatures, bitmap⟩ = numbers := by
  obtain ⟨positions, places, nodup, -, rfl⟩ := collect_eq_ok_iff.1 collected
  have same : (indices ⟨signatures, .ofList positions⟩).Perm numbers := by
    rw [← map_ofNat_of_map_toNat places]
    exact (Bitmap.toList_ofList_perm nodup).map _
  refine same.eq_of_pairwise ?_ ((pairwise_indices _).imp UInt8.le_of_lt) ordered
  intro a b _ _ less greater
  exact UInt8.le_antisymm less greater

/-- What has been put together are the pairs, in the order of their positions. -/
theorem indexed_of_ofIndexed (made : ofIndexed entries = .ok s) : s.indexed = sorted entries := by
  have some : entries ≠ [] := by
    rintro rfl
    cases made
  rw [ofIndexed_of_some some] at made
  cases collected : collect .empty ((sorted entries).map Prod.snd) with
  | error fault =>
    rw [collected] at made
    cases made
  | ok bitmap =>
    rw [collected] at made
    obtain rfl := Except.ok.inj made
    have ordered := List.pairwise_map.2 (pairwise_sorted entries)
    rw [indexed, indices_of_collect ordered collected]
    exact (List.zip_of_prod rfl rfl).symm

/-- A list of pairs gives the threshold signature that has these pairs, and no other. -/
theorem ofIndexed_eq_ok_iff :
    ofIndexed entries = .ok s ↔ s.WellFormed ∧ s.indexed.Perm entries := by
  constructor
  · intro made
    refine ⟨wellFormed_of_ofIndexed made, ?_⟩
    rw [indexed_of_ofIndexed made]
    exact sorted_perm entries
  · rintro ⟨wellFormed, perm⟩
    have pairs : s.indexed = sorted entries := eq_sorted (pairwise_indexed wellFormed) perm
    have some : entries ≠ [] := by
      rintro rfl
      have none : s.signatures = [] := by
        rw [← map_fst_indexed wellFormed, perm.eq_nil]
        rfl
      exact absurd wellFormed.1 (by rw [none]; decide)
    rw [ofIndexed_of_some some, ← pairs, map_fst_indexed wellFormed, map_snd_indexed wellFormed,
      collect_indices]
    rfl

/-- A threshold signature is given exactly by pairs, one at least, whose positions are all different
and below 32. -/
theorem ofIndexed_isOk_iff :
    (∃ s, ofIndexed entries = .ok s) ↔
      entries ≠ [] ∧ (entries.map Prod.snd).Nodup ∧ ∀ entry ∈ entries, entry.2.toNat < 32 := by
  constructor
  · rintro ⟨s, made⟩
    obtain ⟨wellFormed, perm⟩ := ofIndexed_eq_ok_iff.1 made
    have numbers : s.indices.Perm (entries.map Prod.snd) := by
      rw [← map_snd_indexed wellFormed]
      exact perm.map Prod.snd
    refine ⟨?_, numbers.nodup_iff.1 s.nodup_indices, ?_⟩
    · rintro rfl
      cases made
    · intro entry mem
      apply toNat_lt_of_mem_indices (s := s)
      exact numbers.mem_iff.2 (List.mem_map_of_mem mem)
  · rintro ⟨some, nodup, small⟩
    have numbers : ((sorted entries).map Prod.snd).Perm (entries.map Prod.snd) :=
      (sorted_perm entries).map Prod.snd
    have low : ∀ index ∈ (sorted entries).map Prod.snd, index.toNat < 32 := by
      intro index mem
      obtain ⟨entry, inEntries, rfl⟩ := List.mem_map.1 (numbers.mem_iff.1 mem)
      exact small entry inEntries
    obtain ⟨positions, places⟩ := exists_positions low
    have different : positions.Nodup := by
      have images := numbers.nodup_iff.2 nodup
      rw [← map_ofNat_of_map_toNat places] at images
      exact (List.pairwise_map.1 images).imp fun apart equal => apart (by rw [equal])
    have collected : collect .empty ((sorted entries).map Prod.snd) = .ok (.ofList positions) :=
      collect_eq_ok_iff.2
        ⟨positions, places, different, fun i _ => Bitmap.contains_empty i, rfl⟩
    rw [ofIndexed_of_some some, collected]
    exact ⟨_, rfl⟩

/-- More pairs than there are positions give none. -/
theorem ofIndexed_of_many (many : 32 < entries.length) :
    ∃ fault, ofIndexed entries = .error fault := by
  cases result : ofIndexed entries with
  | error fault => exact ⟨fault, rfl⟩
  | ok s =>
    obtain ⟨wellFormed, perm⟩ := ofIndexed_eq_ok_iff.1 result
    have count := perm.length_eq
    have few := s.bitmap.count_le
    rw [← List.length_map (f := Prod.fst), map_fst_indexed wellFormed, wellFormed.2] at count
    omega

/-- The order of the pairs shows neither in the signature nor in the fault. -/
theorem ofIndexed_perm (perm : entries.Perm other) : ofIndexed other = ofIndexed entries := by
  cases result : ofIndexed entries with
  | ok s =>
    obtain ⟨wellFormed, pairs⟩ := ofIndexed_eq_ok_iff.1 result
    exact ofIndexed_eq_ok_iff.2 ⟨wellFormed, pairs.trans perm⟩
  | error fault =>
    by_cases none : entries = []
    · subst none
      obtain rfl := perm.nil_eq
      exact result
    · have some : other ≠ [] := by
        rintro rfl
        exact none perm.eq_nil
      -- The same positions are collected, so the same fault comes first.
      rw [ofIndexed_of_some none] at result
      rw [ofIndexed_of_some some, ← map_snd_sorted_congr perm]
      cases collected : collect .empty ((sorted entries).map Prod.snd) with
      | error found =>
        rw [collected] at result
        exact result
      | ok bitmap =>
        rw [collected] at result
        cases result

/-- Pairs give a threshold signature exactly if there is one at least and their positions are all
different and below 32, which more than 32 pairs never are, and no byte beyond the bitmap is ever
touched. The signature has the given pairs, each once, by increasing position. The order in which
they are given makes no difference to what comes out, be it a signature or a fault. And every
threshold signature comes out of its own pairs, in whatever order these are given. -/
theorem assembled_in_any_order :
    (∀ entries : List (Signature × UInt8),
      ((∃ s, ofIndexed entries = .ok s) ↔
        entries ≠ [] ∧ (entries.map Prod.snd).Nodup ∧ ∀ entry ∈ entries, entry.2.toNat < 32) ∧
      (32 < entries.length → ∃ fault, ofIndexed entries = .error fault) ∧
      ofIndexedBytes? entries =
        some ((ofIndexed entries).map fun s => (s.signatures, s.bitmap.toBytes)) ∧
      (∀ s, ofIndexed entries = .ok s →
        s.indices.length = s.signatures.length ∧ s.indexed.Perm entries ∧
          s.indexed.Pairwise fun a b => a.2 < b.2) ∧
      ∀ other, entries.Perm other → ofIndexed other = ofIndexed entries) ∧
    ∀ s : ThresholdSignature, s.Made →
      ∀ entries, s.indexed.Perm entries → ofIndexed entries = .ok s := by
  constructor
  · intro entries
    refine ⟨ofIndexed_isOk_iff, ofIndexed_of_many, ofIndexedBytes?_eq entries, ?_, ?_⟩
    · intro s made
      obtain ⟨wellFormed, perm⟩ := ofIndexed_eq_ok_iff.1 made
      exact ⟨length_indices wellFormed, perm, pairwise_indexed wellFormed⟩
    · intro other perm
      exact ofIndexed_perm perm
  · intro s made entries perm
    exact ofIndexed_eq_ok_iff.2 ⟨made.wellFormed, perm⟩

namespace Sample

/-- A signature of the second member. -/
def early : Signature := .zero .signature

/-- A signature of the ninth member. -/
def late : Signature := ⟨List.replicate 64 1, rfl⟩

/-- The signature of both, whose positions are in different bytes of the bitmap. -/
def pair : ThresholdSignature := ⟨[early, late], .ofBytes [0x40, 0x80, 0, 0]⟩

end Sample

theorem pair_is_assembled :
    Sample.pair.Made ∧ ofIndexed [(Sample.late, 8), (Sample.early, 1)] = .ok Sample.pair ∧
      ofIndexed [(Sample.early, 1), (Sample.late, 8)] = .ok Sample.pair ∧
      ∃ fault, ofIndexed (List.replicate 33 (Sample.early, 0)) = .error fault := by
  have made : Sample.pair.Made := made_iff.2 ⟨by decide, by decide⟩
  have swapped : Sample.pair.indexed.Perm [(Sample.late, 8), (Sample.early, 1)] := by decide
  obtain ⟨every, back⟩ := assembled_in_any_order
  have first := back Sample.pair made _ swapped
  have second := (every _).2.2.2.2 _ (List.Perm.swap (Sample.early, 1) (Sample.late, 8) [])
  exact ⟨made, first, second.trans first, (every _).2.1 (by decide)⟩

end LedgerClient.ThresholdSignature
