import Qwertycoin.ExtraOrder
import Qwertycoin.Qms

/-
# The carrier of a fragment

A fragment does not fit in one nonce of the extra field of a transaction, so its encoding is cut
again, into up to three segments.  Each segment is a nonce that starts with a subtype and the magic
and tells its number and the number of segments.  The sender appends them to the extra field and
sorts it; the receiver finds them among the other fields in whatever order and rebuilds the
fragment.
-/

namespace Qwertycoin.Qms

open Bytes

/-! ## Segments -/

/-- The nonce that `encode_segments` makes in one turn of its loop. -/
def segmentAt (record : List UInt8) (index : ℕ) : List UInt8 :=
  nonceSubtype :: (magic ++ UInt8.ofNat index ::
    UInt8.ofNat (Chunks.count maxSegmentDataBytes record.length) ::
      Chunks.chunk maxSegmentDataBytes record index)

def encodeSegments (value : Fragment) : Except String (List (List UInt8)) := do
  let record ← encodeFragment value
  let count := Chunks.count maxSegmentDataBytes record.length
  throwIf (count = 0 ∨ maxSegmentsPerFragment < count) "QMS fragment exceeds nonce segment budget"
  return (List.range count).map (segmentAt record)

/-- The segments that have arrived, by number, and the number of segments they tell. -/
structure SegmentSet where
  ordered : Std.ExtTreeMap ℕ (List UInt8) compare
  count : UInt8

/-- One turn of the collecting loop of `decode_segments`. -/
def collectSegment (set : SegmentSet) (nonce : List UInt8) : Except String SegmentSet := do
  throwIf (nonce.length < segmentWrapperBytes ∨ 255 < nonce.length ∨
    nonce.head? ≠ some nonceSubtype ∨ (nonce.drop 1).take 4 ≠ magic) "invalid QMS nonce segment"
  let index := nonce.getD 5 0
  let total := nonce.getD 6 0
  let count := if set.count = 0 then total else set.count
  throwIf (total ≠ count ∨ count = 0 ∨ maxSegmentsPerFragment < count.toNat ∨ count ≤ index)
    "invalid QMS nonce segment index/count"
  throwIf (index.toNat ∈ set.ordered) "duplicate QMS nonce segment"
  return ⟨set.ordered.insert index.toNat (nonce.drop segmentWrapperBytes), count⟩

def decodeSegments (nonces : List (List UInt8)) : Except String Fragment := do
  throwIf (nonces = [] ∨ maxSegmentsPerFragment < nonces.length) "invalid QMS segment count"
  let set ← nonces.foldlM collectSegment ⟨∅, 0⟩
  throwIf (set.ordered.size ≠ set.count.toNat) "missing QMS nonce segment"
  let pieces ← (List.range set.count.toNat).mapM fun i =>
    okOr "missing QMS nonce segment" set.ordered[i]?
  decodeFragment pieces.flatten

lemma maxSegmentDataBytes_pos : 0 < maxSegmentDataBytes := by decide

section Segments

variable {record : List UInt8}

/-- The number of segments of a record. -/
abbrev segmentCount (record : List UInt8) : ℕ := Chunks.count maxSegmentDataBytes record.length

lemma length_segmentAt (record : List UInt8) (i : ℕ) : (segmentAt record i).length =
    segmentWrapperBytes + (Chunks.chunk maxSegmentDataBytes record i).length := by
  simp only [segmentAt, magic, List.length_cons, List.length_append, List.length_nil,
    segmentWrapperBytes]
  omega

lemma length_segmentAt_le (record : List UInt8) (i : ℕ) : (segmentAt record i).length ≤ 255 := by
  rw [length_segmentAt, Chunks.length_chunk]
  exact Nat.add_le_add_left (Nat.min_le_left _ _) segmentWrapperBytes

lemma collectSegment_segmentAt {set : SegmentSet} {i : ℕ}
    (hcount : segmentCount record ≤ maxSegmentsPerFragment) (hi : i < segmentCount record)
    (hset : set.count.toNat = 0 ∨ set.count.toNat = segmentCount record)
    (hfree : i ∉ set.ordered) :
    collectSegment set (segmentAt record i) =
      .ok ⟨set.ordered.insert i (Chunks.chunk maxSegmentDataBytes record i),
        UInt8.ofNat (segmentCount record)⟩ := by
  have hmax : maxSegmentsPerFragment = 3 := rfl
  have hbyte : UInt8.size = 256 := rfl
  have hindex : (UInt8.ofNat i).toNat = i := UInt8.toNat_ofNat_of_lt' (by omega)
  have htotal : (UInt8.ofNat (segmentCount record)).toNat = segmentCount record :=
    UInt8.toNat_ofNat_of_lt' (by omega)
  have hsame : (if set.count = 0 then UInt8.ofNat (segmentCount record) else set.count) =
      UInt8.ofNat (segmentCount record) := by
    split_ifs with hzero
    · rfl
    · rcases hset with hset | hset
      · exact absurd (UInt8.toNat_inj.mp hset) hzero
      · exact UInt8.toNat_inj.mp (hset.trans htotal.symm)
  have hwrapper : ¬((segmentAt record i).length < segmentWrapperBytes ∨
      255 < (segmentAt record i).length ∨ (segmentAt record i).head? ≠ some nonceSubtype ∨
        ((segmentAt record i).drop 1).take 4 ≠ magic) := by
    rintro (hshort | hlong | hsubtype | hmagic)
    · rw [length_segmentAt] at hshort
      omega
    · exact absurd (length_segmentAt_le record i) (not_le.mpr hlong)
    · exact hsubtype rfl
    · exact hmagic rfl
  have hnumbers : ¬(UInt8.ofNat (segmentCount record) ≠ UInt8.ofNat (segmentCount record) ∨
      UInt8.ofNat (segmentCount record) = 0 ∨
        maxSegmentsPerFragment < (UInt8.ofNat (segmentCount record)).toNat ∨
          UInt8.ofNat (segmentCount record) ≤ UInt8.ofNat i) := by
    rintro (hother | hzero | hlarge | hle)
    · exact hother rfl
    · rw [hzero] at htotal
      exact absurd hi (by rw [← htotal]; exact Nat.not_lt_zero i)
    · omega
    · rw [UInt8.le_iff_toNat_le, hindex, htotal] at hle
      omega
  have hget₅ : (segmentAt record i).getD 5 0 = UInt8.ofNat i := rfl
  have hget₆ : (segmentAt record i).getD 6 0 = UInt8.ofNat (segmentCount record) := rfl
  rw [collectSegment, throwIf_bind hwrapper]
  dsimp only
  rw [hget₅, hget₆, hsame, throwIf_bind hnumbers, hindex, throwIf_bind hfree]
  rfl

/-- The segments that have arrived after some numbers. -/
structure Gathered (record : List UInt8) (numbers : List ℕ) (set : SegmentSet) : Prop where
  getElem?_eq : ∀ i, set.ordered[i]? =
    if i ∈ numbers then some (Chunks.chunk maxSegmentDataBytes record i) else none
  count_eq : set.count.toNat = 0 ∧ numbers = [] ∨
    set.count.toNat = segmentCount record

lemma exists_gathered {numbers : List ℕ} (hcount : segmentCount record ≤ maxSegmentsPerFragment)
    (hnodup : numbers.Nodup) (hlt : ∀ i ∈ numbers, i < segmentCount record) :
    ∃ set, (numbers.map (segmentAt record)).foldlM collectSegment ⟨∅, 0⟩ = .ok set ∧
      Gathered record numbers set := by
  induction numbers using List.reverseRecOn with
  | nil => exact ⟨⟨∅, 0⟩, rfl, ⟨fun i => by simp, Or.inl ⟨rfl, rfl⟩⟩⟩
  | append_singleton numbers i ih =>
    obtain ⟨hold, -, hapart⟩ := List.nodup_append.mp hnodup
    obtain ⟨set, hfold, hgathered⟩ := ih hold fun j hj => hlt j (List.mem_append_left _ hj)
    have hi := hlt i (by simp)
    have hnew : i ∉ numbers := fun hmem => hapart i hmem i (List.mem_singleton_self i) rfl
    have hfree : i ∉ set.ordered := by
      rw [Std.ExtTreeMap.mem_iff_isSome_getElem?, hgathered.getElem?_eq, if_neg hnew]
      exact Bool.false_ne_true
    have hstep := collectSegment_segmentAt hcount hi (hgathered.count_eq.imp_left And.left) hfree
    refine ⟨⟨set.ordered.insert i (Chunks.chunk maxSegmentDataBytes record i),
      UInt8.ofNat (segmentCount record)⟩, ?_, ⟨fun j => ?_, Or.inr ?_⟩⟩
    · rw [List.map_append, List.foldlM_append, except_bind_eq_ok_iff]
      refine ⟨set, hfold, ?_⟩
      rw [List.map_singleton, List.foldlM_cons, except_bind_eq_ok_iff]
      exact ⟨_, hstep, rfl⟩
    · rw [Std.ExtTreeMap.getElem?_insert]
      by_cases hj : j = i
      · subst hj
        rw [if_pos (compare_eq_iff_eq.mpr rfl), if_pos (by simp)]
      · rw [if_neg fun heq => hj (compare_eq_iff_eq.mp heq).symm, hgathered.getElem?_eq]
        exact if_congr (by simp [hj]) rfl rfl
    · exact UInt8.toNat_ofNat_of_lt' (by
        have hmax : maxSegmentsPerFragment = 3 := rfl
        have hbyte : UInt8.size = 256 := rfl
        omega)

lemma exists_numbers {nonces : List (List UInt8)}
    (hcount : segmentCount record ≤ maxSegmentsPerFragment)
    (hperm : nonces.Perm ((List.range (segmentCount record)).map (segmentAt record))) :
    ∃ numbers : List ℕ, numbers.Perm (List.range (segmentCount record)) ∧
      numbers.map (segmentAt record) = nonces := by
  have hnumber : ∀ i < segmentCount record, ((segmentAt record i).getD 5 0).toNat = i := by
    intro i hi
    have hmax : maxSegmentsPerFragment = 3 := rfl
    have hbyte : UInt8.size = 256 := rfl
    exact UInt8.toNat_ofNat_of_lt' (by omega)
  refine ⟨nonces.map fun nonce => (nonce.getD 5 0).toNat, ?_, ?_⟩
  · refine (hperm.map _).trans (List.Perm.of_eq ?_)
    rw [List.map_map]
    exact (List.map_congr_left fun i hi => hnumber i (List.mem_range.mp hi)).trans (List.map_id _)
  · rw [List.map_map]
    refine (List.map_congr_left fun nonce hnonce => ?_).trans (List.map_id _)
    obtain ⟨i, hi, rfl⟩ := List.mem_map.mp (hperm.mem_iff.mp hnonce)
    exact congrArg (segmentAt record) (hnumber i (List.mem_range.mp hi))

lemma decodeSegments_of_perm {nonces : List (List UInt8)} (hne : record ≠ [])
    (hcount : segmentCount record ≤ maxSegmentsPerFragment)
    (hperm : nonces.Perm ((List.range (segmentCount record)).map (segmentAt record))) :
    decodeSegments nonces = decodeFragment record := by
  obtain ⟨numbers, hnumbers, rfl⟩ := exists_numbers hcount hperm
  have hlt : ∀ i ∈ numbers, i < segmentCount record :=
    fun i hi => List.mem_range.mp (hnumbers.mem_iff.mp hi)
  obtain ⟨set, hfold, hgathered⟩ :=
    exists_gathered hcount (hnumbers.nodup_iff.mpr List.nodup_range) hlt
  have hpos : 0 < segmentCount record := (Chunks.lt_count_iff maxSegmentDataBytes_pos).mpr
    (by rw [Nat.zero_mul]; exact List.length_pos_of_ne_nil hne)
  have hlength : numbers.length = segmentCount record := by
    rw [hnumbers.length_eq, List.length_range]
  have htold : set.count.toNat = segmentCount record := by
    rcases hgathered.count_eq with ⟨-, hnil⟩ | htold
    · rw [hnil, List.length_nil] at hlength
      omega
    · exact htold
  have hstored : ∀ i < segmentCount record,
      set.ordered[i]? = some (Chunks.chunk maxSegmentDataBytes record i) := by
    intro i hi
    rw [hgathered.getElem?_eq, if_pos (hnumbers.mem_iff.mpr (List.mem_range.mpr hi))]
  have hsize : set.ordered.size = segmentCount record := by
    refine Chunks.size_eq_of_forall_mem_iff fun i => ?_
    rw [← List.mem_range, ← hnumbers.mem_iff, Std.ExtTreeMap.mem_iff_isSome_getElem?,
      hgathered.getElem?_eq]
    split_ifs with hi <;> simp [hi]
  have hnonempty : ¬(numbers.map (segmentAt record) = [] ∨
      maxSegmentsPerFragment < (numbers.map (segmentAt record)).length) := by
    rw [List.map_eq_nil_iff, List.length_map, hlength, ← List.length_eq_zero_iff, hlength]
    omega
  have hpieces : (List.range (segmentCount record)).mapM
      (fun i => okOr "missing QMS nonce segment" set.ordered[i]?) =
        .ok ((List.range (segmentCount record)).map (Chunks.chunk maxSegmentDataBytes record)) :=
    mapM_eq_ok_of_forall fun i hi => okOr_eq_ok_iff.mpr (hstored i (List.mem_range.mp hi))
  rw [decodeSegments, throwIf_bind hnonempty, hfold]
  change (throwIf (set.ordered.size ≠ set.count.toNat) _ >>= fun _ => _) = _
  rw [throwIf_bind (by rw [hsize, htold]; simp), htold, hpieces]
  change decodeFragment _ = _
  rw [← List.flatMap_def, Chunks.flatMap_chunk_count maxSegmentDataBytes_pos]

end Segments

/-! ## The carrier -/

/-- `MAX_TX_EXTRA_SIZE` -/
def maxTxExtraSize : ℕ := 1060

/-- Appending to an extra field: whether it was done, and the extra field after the call. -/
def appendCarrierNonces (extra : List UInt8) (value : Fragment) :
    Except String (Bool × List UInt8) := do
  let segments ← encodeSegments value
  match segments.foldlM addExtraNonceToTxExtra extra with
  | none => return (false, extra)
  | some candidate =>
    if maxTxExtraSize < candidate.length then return (false, extra)
    else match sortTxExtra candidate false with
      | none => return (false, extra)
      | some sorted =>
        if maxTxExtraSize < sorted.length then return (false, extra)
        else return (true, sorted)

/-- A nonce that can be told to belong to QMS. -/
def isQmsNonce : TxExtraField → Bool
  | .nonce nonce => segmentWrapperBytes ≤ nonce.length && nonce.head? = some nonceSubtype
  | _ => false

def qmsNonces (fields : List TxExtraField) : List (List UInt8) :=
  fields.filterMap fun
    | .nonce nonce => if isQmsNonce (.nonce nonce) then some nonce else none
    | _ => none

def extractCarrierFragments (extra : List UInt8) : Except String (List Fragment) :=
  match parseTxExtra extra false with
  | (false, _) => .ok []
  | (true, fields) =>
    if qmsNonces fields = [] then .ok []
    else do
      let value ← decodeSegments (qmsNonces fields)
      return [value]

/-- The extra field carries exactly this fragment beside the fields it had. -/
structure Carries (extra : List UInt8) (fields : List TxExtraField) (value : Fragment) : Prop where
  extracted : extractCarrierFragments extra = .ok [value]
  others : ∃ all, parseTxExtra extra false = (true, all) ∧
    (all.filter fun field => !isQmsNonce field) = sortFields fields
  length_le : extra.length ≤ maxTxExtraSize

section Carrier

variable {value : Fragment}

/-- The segments of a well-shaped fragment. -/
def segmentsOf (value : Fragment) : List (List UInt8) :=
  (List.range (segmentCount (fragmentBytes value))).map (segmentAt (fragmentBytes value))

lemma Fragment.WellShaped.segmentCount_le (h : value.WellShaped) :
    segmentCount (fragmentBytes value) ≤ maxSegmentsPerFragment := by
  rw [Chunks.count_le_iff maxSegmentDataBytes_pos, length_fragmentBytes]
  exact (Nat.add_le_add_left h.length_data_le fragmentHeaderBytes).trans (by decide)

lemma fragmentBytes_ne_nil (value : Fragment) : fragmentBytes value ≠ [] := by
  rw [fragmentBytes_eq]
  exact List.cons_ne_nil _ _

lemma segmentCount_pos (value : Fragment) : 0 < segmentCount (fragmentBytes value) :=
  (Chunks.lt_count_iff maxSegmentDataBytes_pos).mpr
    (by rw [Nat.zero_mul]; exact List.length_pos_of_ne_nil (fragmentBytes_ne_nil value))

lemma encodeSegments_eq (h : value.WellShaped) : encodeSegments value = .ok (segmentsOf value) := by
  have hcount := h.segmentCount_le
  have hpos := segmentCount_pos value
  rw [encodeSegments, except_bind_eq_ok_iff]
  exact ⟨_, encodeFragment_eq_ok_iff.mpr ⟨h, rfl⟩,
    throwIf_bind (not_or.mpr ⟨hpos.ne', not_lt.mpr hcount⟩)⟩

lemma decodeSegments_segmentsOf (h : value.WellShaped) {nonces : List (List UInt8)}
    (hperm : nonces.Perm (segmentsOf value)) : decodeSegments nonces = .ok value := by
  rw [decodeSegments_of_perm (fragmentBytes_ne_nil value) h.segmentCount_le hperm]
  exact decodeFragment_eq_ok_iff.mpr ⟨h, rfl⟩

lemma length_le_of_mem_segmentsOf : ∀ nonce ∈ segmentsOf value, nonce.length ≤ 255 := by
  intro nonce hnonce
  obtain ⟨i, -, rfl⟩ := List.mem_map.mp hnonce
  exact length_segmentAt_le _ i

lemma isQmsNonce_of_mem_segmentsOf :
    ∀ nonce ∈ segmentsOf value, isQmsNonce (.nonce nonce) = true := by
  intro nonce hnonce
  obtain ⟨i, -, rfl⟩ := List.mem_map.mp hnonce
  simp only [isQmsNonce, Bool.and_eq_true, decide_eq_true_eq]
  refine ⟨?_, rfl⟩
  rw [length_segmentAt]
  exact Nat.le_add_right _ _

lemma qmsNonces_append (fields : List TxExtraField) (nonces : List (List UInt8))
    (hfields : ∀ field ∈ fields, isQmsNonce field = false)
    (hnonces : ∀ nonce ∈ nonces, isQmsNonce (.nonce nonce) = true) :
    qmsNonces (fields ++ nonces.map .nonce) = nonces := by
  rw [qmsNonces, List.filterMap_append, List.filterMap_map]
  have hold : fields.filterMap (fun
      | .nonce nonce => if isQmsNonce (.nonce nonce) then some nonce else none
      | _ => none) = [] := by
    refine List.filterMap_eq_nil_iff.mpr fun field hfield => ?_
    have hnot := hfields field hfield
    cases field with
    | nonce nonce => exact if_neg (by rw [hnot]; exact Bool.false_ne_true)
    | _ => rfl
  rw [hold, List.nil_append]
  refine (List.filterMap_congr fun nonce hnonce => ?_).trans List.filterMap_some
  exact if_pos (hnonces nonce hnonce)

/-- The bytes in a field of an unknown kind. -/
def minergateSize : TxExtraField → ℕ
  | .mysteriousMinergate data => data.length
  | _ => 0

def minergateBytes (fields : List TxExtraField) : ℕ := (fields.map minergateSize).sum

lemma minergateBytes_cons (field : TxExtraField) (fields : List TxExtraField) :
    minergateBytes (field :: fields) = minergateSize field + minergateBytes fields := rfl

lemma minergateBytes_append (left right : List TxExtraField) :
    minergateBytes (left ++ right) = minergateBytes left + minergateBytes right := by
  rw [minergateBytes, List.map_append, List.sum_append, minergateBytes, minergateBytes]

lemma minergateBytes_sortFields (fields : List TxExtraField) :
    minergateBytes (sortFields fields) = minergateBytes fields :=
  ((perm_sortFields fields).map _).sum_eq

lemma minergateBytes_filter (fields : List TxExtraField) :
    minergateBytes (fields.filter fun field => !isQmsNonce field) = minergateBytes fields := by
  induction fields with
  | nil => rfl
  | cons field fields ih =>
    by_cases hqms : isQmsNonce field = true
    · rw [List.filter_cons_of_neg (by simp [hqms]), ih, minergateBytes_cons]
      cases field with
      | nonce nonce => exact (Nat.zero_add _).symm
      | _ => cases hqms
    · rw [List.filter_cons_of_pos (by simp [hqms]), minergateBytes_cons, ih, minergateBytes_cons]

/-- What is appended and read behind the old fields is what is extracted. -/
lemma carries_of_reads {candidate sorted : List UInt8} {fields : List TxExtraField}
    (hshape : value.WellShaped) (hqms : ∀ field ∈ fields, isQmsNonce field = false)
    (hreads : Reads candidate (fields ++ (segmentsOf value).map .nonce))
    (hsorted : serializeExtraFields (sortFields (fields ++ (segmentsOf value).map .nonce)) =
      some sorted)
    (hlength : sorted.length ≤ maxTxExtraSize) : Carries sorted fields value := by
  have hparse := hreads.parse_sorted hsorted
  have hnonces : (qmsNonces (sortFields (fields ++ (segmentsOf value).map .nonce))).Perm
      (segmentsOf value) := by
    have hperm := (perm_sortFields (fields ++ (segmentsOf value).map .nonce)).filterMap
      (fun
        | .nonce nonce => if isQmsNonce (.nonce nonce) then some nonce else none
        | _ => none)
    refine hperm.trans (List.Perm.of_eq ?_)
    exact qmsNonces_append fields _ hqms isQmsNonce_of_mem_segmentsOf
  refine ⟨?_, ⟨_, hparse, ?_⟩, hlength⟩
  · have hne : qmsNonces (sortFields (fields ++ (segmentsOf value).map .nonce)) ≠ [] := by
      intro hnil
      have hlen := hnonces.length_eq
      rw [hnil, segmentsOf, List.length_map, List.length_range] at hlen
      exact absurd (segmentCount_pos value) (by rw [← hlen]; exact Nat.lt_irrefl 0)
    rw [extractCarrierFragments, hparse]
    dsimp only
    rw [if_neg hne, decodeSegments_segmentsOf hshape hnonces]
    rfl
  · rw [filter_sortFields, List.filter_append]
    have hold : (fields.filter fun field => !isQmsNonce field) = fields :=
      List.filter_eq_self.mpr fun field hfield => by rw [hqms field hfield]; rfl
    have hnew : (((segmentsOf value).map TxExtraField.nonce).filter
        fun field => !isQmsNonce field) = [] := by
      refine List.filter_eq_nil_iff.mpr fun field hfield => ?_
      obtain ⟨nonce, hnonce, rfl⟩ := List.mem_map.mp hfield
      rw [isQmsNonce_of_mem_segmentsOf nonce hnonce]
      exact Bool.false_ne_true
    rw [hold, hnew, List.append_nil]

/-- A field that has swallowed what was appended is not the field it was. -/
lemma not_carries_of_reads {candidate sorted : List UInt8} {init behind : List TxExtraField}
    {data : List UInt8} (hlarge : 256 ≤ data.length)
    (hreads : Reads candidate (init ++ .mysteriousMinergate data :: behind))
    (hsorted : serializeExtraFields (sortFields (init ++ .mysteriousMinergate data :: behind)) =
      some sorted) : ¬Carries sorted (init ++ [.mysteriousMinergate []]) value := by
  rintro ⟨-, ⟨all, hall, hothers⟩, -⟩
  rw [hreads.parse_sorted hsorted] at hall
  obtain ⟨-, rfl⟩ := Prod.mk.inj hall
  have hbytes := congrArg minergateBytes hothers
  rw [minergateBytes_filter, minergateBytes_sortFields, minergateBytes_sortFields,
    minergateBytes_append, minergateBytes_append] at hbytes
  have hswallowed : minergateBytes (.mysteriousMinergate data :: behind) =
      data.length + minergateBytes behind := rfl
  have hempty : minergateBytes [.mysteriousMinergate []] = 0 := rfl
  omega

/-- Appending is refused, or all fields could be read behind each other and are written in order. -/
lemma appendCarrierNonces_cases (hshape : value.WellShaped) (extra : List UInt8) :
    appendCarrierNonces extra value = .ok (false, extra) ∨
    ∃ sorted all, appendCarrierNonces extra value = .ok (true, sorted) ∧
      Reads (extra ++ nonceFields (segmentsOf value)) all ∧
      serializeExtraFields (sortFields all) = some sorted ∧ sorted.length ≤ maxTxExtraSize ∧
      (extra ++ nonceFields (segmentsOf value)).length ≤ maxTxExtraSize := by
  have happend : appendCarrierNonces extra value =
      match (segmentsOf value).foldlM addExtraNonceToTxExtra extra with
      | none => .ok (false, extra)
      | some candidate =>
        if maxTxExtraSize < candidate.length then .ok (false, extra)
        else match sortTxExtra candidate false with
          | none => .ok (false, extra)
          | some sorted =>
            if maxTxExtraSize < sorted.length then .ok (false, extra)
            else .ok (true, sorted) := by
    rw [appendCarrierNonces, encodeSegments_eq hshape]
    rfl
  rw [happend, foldlM_addExtraNonce length_le_of_mem_segmentsOf]
  dsimp only
  split_ifs with hlong
  · exact Or.inl rfl
  cases hsort : sortTxExtra (extra ++ nonceFields (segmentsOf value)) false with
  | none => exact Or.inl rfl
  | some sorted =>
    dsimp only
    split_ifs with hlarge
    · exact Or.inl rfl
    rw [sortTxExtra] at hsort
    split at hsort
    · rename_i all hparse
      exact Or.inr ⟨sorted, all, rfl, .of_parseTxExtra hparse, hsort, not_lt.mp hlarge,
        not_lt.mp hlong⟩
    · cases hsort

lemma exists_nonceFields_eq_cons (value : Fragment) :
    ∃ more, nonceFields (segmentsOf value) = 0x02 :: more := by
  obtain ⟨n, hn⟩ := Nat.exists_eq_succ_of_ne_zero (segmentCount_pos value).ne'
  rw [segmentsOf, hn, List.range_succ_eq_map, List.map_cons, nonceFields, List.flatMap_cons]
  exact ⟨_, rfl⟩

end Carrier

/-- The fragment of a ciphertext of 151 bytes, whose encoding fills 247 bytes of one segment. -/
def swallowedFragment : Fragment :=
  fragmentAt Sodium.sample (sampleInvitation 1) (Block.zero 32) (Block.zero 16)
    (List.replicate 151 7) 0

end Qwertycoin.Qms
