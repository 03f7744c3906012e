import ThreadCommissioner.CoapCodec

namespace ThreadCommissioner.CoapLaws

open ByteStrings Coap CoapCodec Computations Errors List Texts

section Sorting

theorem keyLe_iff {a b : CoapOption × ℕ} :
    keyLe a b ↔ a.1.number.toNat < b.1.number.toNat ∨ a.1.number.toNat = b.1.number.toNat ∧ a.2 ≤ b.2 := by
  rw [keyLe, UInt16.lt_iff_toNat_lt, UInt16.toNat_inj]

instance : Std.Total keyLe where
  total a b := by
    simp only [keyLe_iff]
    omega

instance : IsTrans (CoapOption × ℕ) keyLe where
  trans a b c := by
    simp only [keyLe_iff]
    omega

theorem number_le_of_keyLe {a b : CoapOption × ℕ} (h : keyLe a b) : a.1.number ≤ b.1.number := by
  rw [keyLe_iff] at h
  rw [UInt16.le_iff_toNat_le]
  omega

variable (options : List CoapOption)

theorem pairwise_zipIdx : options.zipIdx.Pairwise fun a b => a.2 < b.2 := by
  have h : (options.zipIdx.map Prod.snd).Pairwise (· < ·) := by
    rw [zipIdx_map_snd]
    exact pairwise_lt_range'
  exact pairwise_map.mp h

/-- The order of the numbers, and within one number that of the message. -/
def StablySorted (options sorted : List CoapOption) : Prop :=
  sorted.Pairwise (fun a b => a.number ≤ b.number) ∧
    ∀ number, sorted.filter (·.number = number) = options.filter (·.number = number)

theorem filter_insertionSort (number : UInt16) : (options.zipIdx.insertionSort keyLe).filter (fun a => a.1.number = number) =
      options.zipIdx.filter fun a => a.1.number = number := by
  have hperm := (perm_insertionSort keyLe options.zipIdx).filter fun a => a.1.number = number
  refine hperm.eq_of_pairwise ?_ ((pairwise_insertionSort keyLe _).filter _) ?_
  · -- no two entries have the same position
    intro a b ha hb hab hba
    rw [keyLe_iff] at hab hba
    have hposition : a.2 = b.2 := by omega
    have hfirst := List.mem_zipIdx_iff_getElem?.mp ((mem_insertionSort keyLe).mp (mem_filter.mp ha).1)
    have hsecond := List.mem_zipIdx_iff_getElem?.mp (mem_filter.mp hb).1
    rw [hposition, hsecond] at hfirst
    exact Prod.ext (Option.some.inj hfirst).symm hposition
  · refine List.Pairwise.imp_of_mem ?_ ((pairwise_zipIdx options).filter _)
    intro a b ha hb hlt
    have hnumber : a.1.number = b.1.number :=
      (of_decide_eq_true (mem_filter.mp ha).2).trans (of_decide_eq_true (mem_filter.mp hb).2).symm
    exact .inr ⟨hnumber, hlt.le⟩

theorem sortedOptions_stable : StablySorted options (sortedOptions options) := by
  constructor
  · refine pairwise_map.mpr ((pairwise_insertionSort keyLe options.zipIdx).imp ?_)
    exact number_le_of_keyLe
  · intro number
    rw [sortedOptions, filter_map]
    change ((options.zipIdx.insertionSort keyLe).filter fun a => a.1.number = number).map Prod.fst = _
    rw [filter_insertionSort]
    nth_rewrite 2 [← zipIdx_map_fst 0 options]
    rw [filter_map]
    rfl

theorem sortedOptions_of_pairwise {options : List CoapOption} (h : options.Pairwise fun a b => a.number ≤ b.number) :
    sortedOptions options = options := by
  have hnumbers : options.zipIdx.Pairwise fun a b => a.1.number ≤ b.1.number := by
    rw [← zipIdx_map_fst 0 options, pairwise_map] at h
    exact h
  have hkeys : options.zipIdx.Pairwise keyLe := by
    refine (hnumbers.and (pairwise_zipIdx options)).imp ?_
    rintro a b ⟨hnumber, hposition⟩
    rw [UInt16.le_iff_toNat_le] at hnumber
    rw [keyLe_iff]
    omega
  rw [sortedOptions, hkeys.insertionSort_eq, zipIdx_map_fst]

theorem mem_sortedOptions {options : List CoapOption} {option : CoapOption} :
    option ∈ sortedOptions options ↔ option ∈ options := by
  have hperm := (perm_insertionSort keyLe options.zipIdx).map Prod.fst
  rw [zipIdx_map_fst] at hperm
  exact hperm.mem_iff

end Sorting

section Encoding

variable {last : UInt16} {opts : List CoapOption}

def tooLong : Error := .dataset "CoAP option too long"

/-- Options in the order of their numbers are encoded unless one of them is too
long; by induction on the options. -/
theorem encodeOptions_of_pairwise (hsorted : opts.Pairwise fun a b => a.number ≤ b.number)
    (hlast : ∀ option ∈ opts, last ≤ option.number) :
    (∀ option ∈ opts, option.value.length ≤ 65535) ∧ (∃ bytes, encodeOptions last opts = .ok bytes) ∨
      (∃ option ∈ opts, 65535 < option.value.length) ∧ encodeOptions last opts = .error tooLong := by
  induction opts generalizing last with
  | nil => exact .inl ⟨forall_mem_nil _, [], rfl⟩
  | cons option opts ih =>
    obtain ⟨hnext, hrest⟩ := pairwise_cons.mp hsorted
    rw [encodeOptions, ensure_true (hlast option mem_cons_self), ok_bind]
    by_cases hlen : option.value.length < 2 ^ 16
    · have hheader : ∃ header, encodeOptionHeader (option.number - last) option.value.length = .ok header := by
        simp only [encodeOptionHeader, ensure_true hlen, ok_bind]
        exact ⟨_, rfl⟩
      obtain ⟨header, hheader⟩ := hheader
      rw [hheader, ok_bind]
      obtain ⟨hall, bytes, hbytes⟩ | ⟨⟨long, hmem, hlong⟩, herror⟩ := ih hrest hnext
      · rw [hbytes]
        exact .inl ⟨forall_mem_cons.mpr ⟨Nat.le_of_lt_succ hlen, hall⟩, _, rfl⟩
      · rw [herror]
        exact .inr ⟨⟨long, mem_cons_of_mem _ hmem, hlong⟩, rfl⟩
    · have hheader : encodeOptionHeader (option.number - last) option.value.length = .error tooLong := by
        simp only [encodeOptionHeader, ensure, if_neg hlen]
        rfl
      rw [hheader]
      exact .inr ⟨⟨option, mem_cons_self, Nat.not_lt.mp hlen⟩, rfl⟩

theorem encode_cases (m : CoapMessage) : (m.token.length ≤ 8 ∧ ∀ option ∈ m.options, option.value.length ≤ 65535) ∧
        (∃ wire, m.encode = .ok wire) ∨ ¬ (m.token.length ≤ 8 ∧ ∀ option ∈ m.options, option.value.length ≤ 65535) ∧
        (m.encode = .error (.dataset "CoAP token length > 8") ∨ m.encode = .error tooLong) := by
  by_cases htoken : m.token.length ≤ 8
  · rw [CoapMessage.encode, ensure_true htoken, ok_bind]
    obtain ⟨hall, bytes, hbytes⟩ | ⟨⟨long, hmem, hlong⟩, herror⟩ :=
      encodeOptions_of_pairwise (sortedOptions_stable m.options).1 fun option _ => UInt16.zero_le
    · rw [hbytes]
      exact .inl ⟨⟨htoken, fun option hmem => hall option (mem_sortedOptions.mpr hmem)⟩, _, rfl⟩
    · rw [herror]
      refine .inr ⟨fun h => ?_, .inr rfl⟩
      exact Nat.not_lt.mpr (h.2 long (mem_sortedOptions.mp hmem)) hlong
  · rw [CoapMessage.encode, ensure, if_neg htoken]
    exact .inr ⟨fun h => htoken h.1, .inl rfl⟩

end Encoding

section Paths

theorem imp_of_ite {α : Type} {p q : Prop} [Decidable p] {x y : Option α} {a : α} (hx : x = some a → q)
    (hy : y = some a → q) : (if p then x else y) = some a → q := by
  split
  · exact hx
  · exact hy

theorem continuations_above {lead : UInt8} {pending : List (UInt8 × UInt8)} (h : continuations lead = some pending) :
    ∀ range ∈ pending, 0x2f < range.1 := by
  have hnone : none = some pending → ∀ range ∈ pending, 0x2f < range.1 := by
    intro h
    cases h
  have hsome : ∀ {ranges : List (UInt8 × UInt8)}, ranges.all (0x2f < ·.1) = true → some ranges = some pending →
      ∀ range ∈ pending, 0x2f < range.1 := by
    intro ranges hranges h range hmem
    cases h
    exact of_decide_eq_true (all_eq_true.mp hranges range hmem)
  revert h
  refine imp_of_ite (hsome (by decide)) (imp_of_ite hnone (imp_of_ite (hsome (by decide)) ?_))
  refine imp_of_ite (hsome (by decide)) (imp_of_ite (hsome (by decide)) (imp_of_ite (hsome (by decide)) ?_))
  exact imp_of_ite (hsome (by decide)) (imp_of_ite (hsome (by decide)) (imp_of_ite (hsome (by decide)) hnone))

/-- A text is cut at its slashes between characters; by induction on the bytes. -/
theorem utf8From_splitOn {bytes : Bytes} {pending : List (UInt8 × UInt8)} (h : utf8From pending bytes = true)
    (habove : ∀ range ∈ pending, 0x2f < range.1) :
    ∃ segment segments, bytes.splitOn 0x2f = segment :: segments ∧ utf8From pending segment = true ∧
      ∀ other ∈ segments, utf8Valid other = true := by
  induction bytes generalizing pending with
  | nil => exact ⟨[], [], rfl, h, forall_mem_nil _⟩
  | cons b bytes ih =>
    by_cases hslash : b = 0x2f
    · have hsplit : (b :: bytes).splitOn 0x2f = [] :: bytes.splitOn 0x2f := by
        rw [List.splitOn, splitOnP_cons_eq_if_modifyHead, if_pos (by simpa using hslash)]
        rfl
      cases pending with
      | nil =>
        rw [hslash] at h
        have hrest : utf8From [] bytes = true := h
        obtain ⟨segment, segments, hsegments, hsegment, hothers⟩ := ih hrest (forall_mem_nil _)
        exact ⟨[], _, hsplit, rfl, by rw [hsegments]; exact forall_mem_cons.mpr ⟨hsegment, hothers⟩⟩
      | cons range pending =>
        rw [utf8From, hslash, Bool.and_eq_true, Bool.and_eq_true, decide_eq_true_eq] at h
        exact absurd h.1.1 (UInt8.not_le.mpr (habove range mem_cons_self))
    · have hsplit : ∀ {segment segments}, bytes.splitOn 0x2f = segment :: segments →
          (b :: bytes).splitOn 0x2f = (b :: segment) :: segments := by
        intro segment segments hsegments
        rw [List.splitOn] at hsegments ⊢
        rw [splitOnP_cons_eq_if_modifyHead, if_neg (by simpa using hslash), hsegments, modifyHead_cons]
      cases pending with
      | nil =>
        rw [utf8From] at h
        cases hlead : continuations b with
        | none =>
          rw [hlead] at h
          cases h
        | some pending =>
          rw [hlead] at h
          obtain ⟨segment, segments, hsegments, hsegment, hothers⟩ := ih h (continuations_above hlead)
          refine ⟨b :: segment, segments, hsplit hsegments, ?_, hothers⟩
          rw [utf8From, hlead]
          exact hsegment
      | cons range pending =>
        rw [utf8From, Bool.and_eq_true] at h
        obtain ⟨segment, segments, hsegments, hsegment, hothers⟩ :=
          ih h.2 fun other hmem => habove other (mem_cons_of_mem _ hmem)
        refine ⟨b :: segment, segments, hsplit hsegments, ?_, hothers⟩
        rw [utf8From, h.1, hsegment]
        rfl

theorem utf8Valid_of_mem_splitOn {bytes seg : Bytes} (h : utf8Valid bytes = true)
    (hmem : seg ∈ bytes.splitOn 0x2f) : utf8Valid seg = true := by
  obtain ⟨first, segs, hsegs, hfirst, hothers⟩ := utf8From_splitOn h (forall_mem_nil _)
  rw [hsegs] at hmem
  rcases mem_cons.mp hmem with rfl | hmem
  · exact hfirst
  · exact hothers seg hmem

theorem uriSegments_filter (opts : List CoapOption) :
    uriSegments opts = uriSegments (opts.filter (·.number = coapOptionUriPath)) := by
  induction opts with
  | nil => rfl
  | cons option opts ih =>
    by_cases h : option.number = coapOptionUriPath
    · rw [filter_cons_of_pos (by simpa using h), uriSegments, uriSegments, if_pos h, if_pos h, ih]
    · rw [filter_cons_of_neg (by simpa using h), uriSegments, if_neg h, ih]

theorem uriSegments_map {segments : List Bytes} (h : ∀ segment ∈ segments, utf8Valid segment = true) :
    ∃ texts, uriSegments (segments.map (CoapOption.mk coapOptionUriPath)) = .ok texts ∧ texts.map Text.bytes = segments := by
  induction segments with
  | nil => exact ⟨[], rfl, rfl⟩
  | cons segment segments ih =>
    obtain ⟨hsegment, hsegments⟩ := forall_mem_cons.mp h
    obtain ⟨texts, htexts, hbytes⟩ := ih hsegments
    refine ⟨⟨segment, hsegment⟩ :: texts, ?_, by rw [map_cons, hbytes]⟩
    rw [map_cons, uriSegments, if_pos rfl, fromUtf8, dif_pos hsegment, htexts]
    rfl

theorem bytes_path (texts : List Text) (h : texts ≠ []) :
    (Text.path texts).bytes = 0x2f :: [0x2f].intercalate (texts.map Text.bytes) := by
  induction texts with
  | nil => exact absurd rfl h
  | cons text texts ih =>
    cases texts with
    | nil => simp [Text.path, Text.append, slash, List.intercalate]
    | cons next texts =>
      have hrest := ih (cons_ne_nil next texts)
      change [0x2f] ++ (text.bytes ++ (Text.path (next :: texts)).bytes) = _
      rw [hrest]
      simp [List.intercalate]

theorem uriPath_of_filter {m : CoapMessage} {path : Text} {rest : Bytes} (hpath : path.bytes = 0x2f :: rest)
    (h : m.options.filter (·.number = coapOptionUriPath) =
      (rest.splitOn 0x2f).map (CoapOption.mk coapOptionUriPath)) : m.uriPath = .ok (some path) := by
  have hvalid : utf8Valid rest = true := by
    have hbytes := path.valid
    rw [hpath] at hbytes
    exact hbytes
  obtain ⟨texts, htexts, hbytes⟩ := uriSegments_map fun segment hmem => utf8Valid_of_mem_splitOn hvalid hmem
  have hne : texts ≠ [] := by
    rintro rfl
    exact splitOnP_ne_nil _ rest hbytes.symm
  have htext : Text.path texts = path := by
    have heq : (Text.path texts).bytes = path.bytes := by
      rw [bytes_path texts hne, hbytes, intercalate_splitOn, hpath]
    cases hleft : Text.path texts
    rw [hleft] at heq
    cases path
    cases heq
    rfl
  rw [CoapMessage.uriPath, uriSegments_filter, h, htexts, ok_bind]
  cases texts with
  | nil => exact absurd rfl hne
  | cons text texts =>
    rw [← htext]
    rfl

theorem setUriPath_of_segments (m : CoapMessage) {path : Text} {rest : Bytes} (hpath : path.bytes = 0x2f :: rest)
    (hsegs : [] ∉ rest.splitOn 0x2f) : m.setUriPath path = .ok { m with
      options := m.options.filter (·.number ≠ coapOptionUriPath) ++
        (rest.splitOn 0x2f).map (CoapOption.mk coapOptionUriPath) } := by
  have hrest : rest ≠ [] := by
    rintro rfl
    exact hsegs mem_cons_self
  rw [CoapMessage.setUriPath]
  simp only [hpath, List.head?_cons, tail_cons, if_true, if_neg hrest, if_neg hsegs]

theorem uriPath_sortedOptions (m : CoapMessage) {path : Text} {rest : Bytes} (hpath : path.bytes = 0x2f :: rest) :
    CoapMessage.uriPath { m with
      options := sortedOptions (m.options.filter (·.number ≠ coapOptionUriPath) ++
        (rest.splitOn 0x2f).map (CoapOption.mk coapOptionUriPath)) } = .ok (some path) := by
  refine uriPath_of_filter hpath ?_
  dsimp only
  rw [(sortedOptions_stable _).2, filter_append, filter_filter]
  simp [filter_eq_self]

end Paths

/-- A message is encoded exactly if its token and its options fit, and is read
back with its options sorted, the path among them unchanged. -/
theorem coap_round_trip :
    (∀ message : CoapMessage, (∃ wire, message.encode = .ok wire) ↔
        message.token.length ≤ 8 ∧ ∀ option ∈ message.options, option.value.length ≤ 65535) ∧
      (∀ message : CoapMessage, message.encode ≠ .error (.dataset "CoAP option numbers decreased")) ∧
      (∀ (message : CoapMessage) (wire : Bytes), message.encode = .ok wire →
        ∃ options, StablySorted message.options options ∧ CoapMessage.decode wire = .ok { message with options }) ∧
      ∀ (message : CoapMessage) (path : Text) (rest : Bytes), path.bytes = 0x2f :: rest → [] ∉ rest.splitOn 0x2f →
        ∃ request, message.setUriPath path = .ok request ∧ ∀ wire, request.encode = .ok wire →
          ∃ received, CoapMessage.decode wire = .ok received ∧ received.uriPath = .ok (some path) := by
  refine ⟨fun message => ?_, fun message => ?_, fun message wire h => ?_, fun message path rest hpath hsegments => ?_⟩
  · obtain ⟨hfits, hencoded⟩ | ⟨hfits, herror⟩ := encode_cases message
    · exact iff_of_true hencoded hfits
    · refine iff_of_false ?_ hfits
      rintro ⟨wire, hwire⟩
      rcases herror with herror | herror <;> cases herror.symm.trans hwire
  · intro hdecreased
    obtain ⟨-, wire, hwire⟩ | ⟨-, herror | herror⟩ := encode_cases message
    · cases hwire.symm.trans hdecreased
    · have heq := herror.symm.trans hdecreased
      simp at heq
    · have heq := herror.symm.trans hdecreased
      simp [tooLong] at heq
  · exact ⟨_, sortedOptions_stable message.options, decode_encode h⟩
  · exact ⟨_, setUriPath_of_segments message hpath hsegments, fun wire h =>
      ⟨_, decode_encode h, uriPath_sortedOptions message hpath⟩⟩

/-- The path `/c`. -/
def shortPath : Text := ⟨[0x2f, 0x63], by decide⟩

theorem coap_round_trip_shortPath : ∃ request wire received,
    CoapMessage.setUriPath ⟨.confirmable, .post, 1, [7], [⟨60, [1]⟩, ⟨3, []⟩], [2]⟩ shortPath = .ok request ∧
      request.encode = .ok wire ∧ CoapMessage.decode wire = .ok received ∧ received.uriPath = .ok (some shortPath) := by
  obtain ⟨hencodes, -, -, hpath⟩ := coap_round_trip
  obtain ⟨request, hrequest, hround⟩ :=
    hpath ⟨.confirmable, .post, 1, [7], [⟨60, [1]⟩, ⟨3, []⟩], [2]⟩ shortPath [0x63] rfl (by decide)
  have hfits : request.token.length ≤ 8 ∧ ∀ option ∈ request.options, option.value.length ≤ 65535 := by
    cases hrequest
    decide
  obtain ⟨wire, hwire⟩ := (hencodes request).mpr hfits
  obtain ⟨received, hreceived, huri⟩ := hround wire hwire
  exact ⟨request, wire, received, hrequest, hwire, hreceived, huri⟩

section Canonical

variable {last : UInt16} {option : CoapOption} {opts : List CoapOption}

theorem byte_nibbles (byte : UInt8) : (byte >>> 4) <<< 4 ||| byte &&& 0x0f = byte := by
  have htable : ∀ n : Fin 256, (UInt8.ofNat n.val >>> 4) <<< 4 ||| UInt8.ofNat n.val &&& 0x0f = UInt8.ofNat n.val := by
    decide +kernel
  have hbyte := htable ⟨byte.toNat, byte.toNat_lt⟩
  rwa [UInt8.ofNat_toNat] at hbyte

theorem encodeExtendedNibble_nibble {nibble : UInt8} (h : nibble ≤ 12) :
    encodeExtendedNibble nibble.toUInt16 = (nibble, []) := by
  have hle : nibble.toUInt16 ≤ 12 := by
    rw [UInt16.le_iff_toNat_le, UInt8.toNat_toUInt16]
    exact h
  rw [encodeExtendedNibble, if_pos hle]
  simp

theorem encodeExtendedNibble_byte (byte : UInt8) : encodeExtendedNibble (byte.toUInt16 + 13) = (13, [byte]) := by
  have hlt := byte.toNat_lt
  have hvalue : (byte.toUInt16 + 13).toNat = byte.toNat + 13 := by
    rw [UInt16.toNat_add, UInt8.toNat_toUInt16]
    exact Nat.mod_eq_of_lt (by change byte.toNat + 13 < 2 ^ 16; omega)
  have hlow : ¬ byte.toUInt16 + 13 ≤ 12 := by
    rw [UInt16.le_iff_toNat_le, hvalue]
    exact Nat.not_le.mpr (by change 12 < byte.toNat + 13; omega)
  have hhigh : byte.toUInt16 + 13 ≤ 268 := by
    rw [UInt16.le_iff_toNat_le, hvalue]
    change byte.toNat + 13 ≤ 268
    omega
  rw [encodeExtendedNibble, if_neg hlow, if_pos hhigh, UInt16.add_sub_cancel]
  simp

theorem encodeExtendedNibble_word {n : ℕ} (h : n + 269 < 2 ^ 16) :
    encodeExtendedNibble (.ofNat (n + 269)) = (14, beBytes 2 n) := by
  have hvalue : (UInt16.ofNat (n + 269)).toNat = n + 269 := by
    rw [UInt16.toNat_ofNat']
    exact Nat.mod_eq_of_lt h
  have hlow : ¬ UInt16.ofNat (n + 269) ≤ 12 := by
    rw [UInt16.le_iff_toNat_le, hvalue]
    exact Nat.not_le.mpr (by change 12 < n + 269; omega)
  have hhigh : ¬ UInt16.ofNat (n + 269) ≤ 268 := by
    rw [UInt16.le_iff_toNat_le, hvalue]
    exact Nat.not_le.mpr (by change 268 < n + 269; omega)
  have hle : 269 ≤ UInt16.ofNat (n + 269) := by
    rw [UInt16.le_iff_toNat_le, hvalue]
    exact Nat.le_add_left _ _
  have hsub : (UInt16.ofNat (n + 269) - 269).toNat = n := by
    rw [UInt16.toNat_sub_of_le _ _ hle, hvalue]
    exact Nat.add_sub_cancel _ _
  rw [encodeExtendedNibble, if_neg hlow, if_neg hhigh, hsub]

variable {bytes : Bytes} {m : CoapMessage}

theorem encodeExtendedNibble_of_decode {nibble : UInt8} {value : UInt16} {used : ℕ}
    (h : decodeExtendedNibble nibble bytes = .ok (value, used)) :
    encodeExtendedNibble value = (nibble, bytes.take used) := by
  rw [decodeExtendedNibble.eq_def] at h
  split at h
  · next hnibble =>
    cases h
    exact encodeExtendedNibble_nibble hnibble
  split at h
  · next hnibble =>
    cases bytes with
    | nil => cases h
    | cons byte bytes =>
      cases h
      rw [hnibble]
      exact encodeExtendedNibble_byte byte
  split at h
  · next hnibble =>
    split at h
    · cases h
    · next hlen =>
      dsimp only at h
      split at h
      · next hsum =>
        cases h
        have hbytes := beBytes_beNat (bytes.take 2)
        rw [length_take, min_eq_left (Nat.not_lt.mp hlen)] at hbytes
        rw [hnibble, encodeExtendedNibble_word hsum, hbytes]
      · cases h
  · cases h

theorem encodeOptionHeader_of_decode {first : UInt8} {afterHeader rest : Bytes}
    (h : decodeOption last first afterHeader = .ok (option, rest)) : last ≤ option.number ∧
      ∃ hdr, encodeOptionHeader (option.number - last) option.value.length = .ok hdr ∧
        first :: afterHeader = hdr ++ option.value ++ rest := by
  obtain ⟨⟨delta, usedDelta⟩, hdelta, h⟩ := bind_ok.mp h
  obtain ⟨⟨length, usedLen⟩, hlen, h⟩ := bind_ok.mp h
  obtain ⟨_, hvalue, h⟩ := bind_ok.mp h
  obtain ⟨_, hnumber, h⟩ := bind_ok.mp h
  cases h
  have hdelta := encodeExtendedNibble_of_decode hdelta
  have hlen := encodeExtendedNibble_of_decode hlen
  have hvalue := ensure_eq_ok.mp hvalue
  have hnumber := ensure_eq_ok.mp hnumber
  dsimp only at hdelta hlen hvalue hnumber ⊢
  have hsum : (last + delta).toNat = last.toNat + delta.toNat := by
    rw [UInt16.toNat_add]
    exact Nat.mod_eq_of_lt hnumber
  have hle : last ≤ last + delta := by
    rw [UInt16.le_iff_toNat_le, hsum]
    exact Nat.le_add_right _ _
  have hsub : last + delta - last = delta := by
    rw [UInt16.add_comm, UInt16.add_sub_cancel]
  have htake : (((afterHeader.drop usedDelta).drop usedLen).take length.toNat).length = length.toNat := by
    rw [length_take, min_eq_left hvalue]
  refine ⟨hle, first :: (afterHeader.take usedDelta ++ (afterHeader.drop usedDelta).take usedLen), ?_, ?_⟩
  · rw [hsub, htake]
    simp only [encodeOptionHeader, ensure_true length.toNat_lt, ok_bind, UInt16.ofNat_toNat, hdelta, hlen, byte_nibbles]
    rfl
  · simp only [cons_append, append_assoc, take_append_drop]

theorem encodeOptions_of_decode {rest payload : Bytes} (h : decodeOptions last rest = .ok (opts, payload)) :
    opts.Pairwise (fun a b => a.number ≤ b.number) ∧ (∀ option ∈ opts, last ≤ option.number) ∧
      ∃ bytes, encodeOptions last opts = .ok bytes ∧
        (rest = bytes ++ ending payload ∨ payload = [] ∧ rest = bytes ++ [0xff]) := by
  fun_induction decodeOptions last rest generalizing opts payload with
  | case1 last =>
    cases h
    exact ⟨.nil, forall_mem_nil _, [], rfl, .inl rfl⟩
  | case2 last afterHeader =>
    cases h
    refine ⟨.nil, forall_mem_nil _, [], rfl, ?_⟩
    by_cases hpayload : afterHeader = []
    · exact .inr ⟨hpayload, by rw [hpayload]; rfl⟩
    · exact .inl (by rw [ending, if_neg hpayload]; rfl)
  | case3 last first afterHeader hmarker e hoption => cases h
  | case4 last first afterHeader hmarker option rest hoption hle e hrest ih => cases h
  | case5 last first afterHeader hmarker option rest hoption hle options' payload' hrest ih =>
    cases h
    obtain ⟨hsorted, hlast, bytes, hbytes, hsplit⟩ := ih hrest
    obtain ⟨hnumber, hdr, hheader, hfirst⟩ := encodeOptionHeader_of_decode hoption
    refine ⟨pairwise_cons.mpr ⟨hlast, hsorted⟩, ?_, hdr ++ option.value ++ bytes, ?_, ?_⟩
    · refine forall_mem_cons.mpr ⟨hnumber, fun other hmem => ?_⟩
      exact UInt16.le_trans hnumber (hlast other hmem)
    · rw [encodeOptions, ensure_true hnumber, ok_bind, hheader, ok_bind, hbytes]
      rfl
    · rw [hfirst]
      rcases hsplit with hsplit | ⟨hpayload, hsplit⟩
      · exact .inl (by rw [hsplit]; simp only [append_assoc])
      · exact .inr ⟨hpayload, by rw [hsplit]; simp only [append_assoc]⟩

theorem toByte_of_tryFrom {value : UInt8} {ty : CoapType} (h : CoapType.tryFrom value = .ok ty) : ty.toByte = value := by
  unfold CoapType.tryFrom at h
  split_ifs at h with h0 h1 h2 h3
  · cases h
    exact h0.symm
  · cases h
    exact h1.symm
  · cases h
    exact h2.symm
  · cases h
    exact h3.symm

theorem first_byte_of_version {first : UInt8} (h : first >>> 6 = 1) :
    (0x01 : UInt8) <<< 6 ||| (first >>> 4 &&& 0x03) <<< 4 ||| first &&& 0x0f = first := by
  have htable : ∀ n : Fin 256, UInt8.ofNat n.val >>> 6 = 1 →
      (0x01 : UInt8) <<< 6 ||| (UInt8.ofNat n.val >>> 4 &&& 0x03) <<< 4 ||| UInt8.ofNat n.val &&& 0x0f =
        UInt8.ofNat n.val := by
    decide +kernel
  have hfirst := htable ⟨first.toNat, first.toNat_lt⟩
  rw [UInt8.ofNat_toNat] at hfirst
  exact hfirst h

theorem encode_of_decode (h : CoapMessage.decode bytes = .ok m) :
    ∃ body, m.encode = .ok body ∧ (bytes = body ∨ m.payload = [] ∧ bytes = body ++ [0xff]) := by
  unfold CoapMessage.decode at h
  split at h
  · next first code high low rest =>
    obtain ⟨_, hversion, h⟩ := bind_ok.mp h
    obtain ⟨_, htoken, h⟩ := bind_ok.mp h
    obtain ⟨ty, hty, h⟩ := bind_ok.mp h
    obtain ⟨⟨opts, payload⟩, hopts, h⟩ := bind_ok.mp h
    cases h
    obtain ⟨htoken, hrest⟩ := ensure_eq_ok.mp htoken
    obtain ⟨hsorted, -, encoded, hencoded, hsplit⟩ := encodeOptions_of_decode hopts
    have hlen : (rest.take (first &&& 0x0f).toNat).length = (first &&& 0x0f).toNat := by
      rw [length_take, min_eq_left hrest]
    have hid : beBytes 2 (UInt16.ofNat (beNat [high, low])).toNat = [high, low] := by
      have hlt : beNat [high, low] < 256 ^ 2 := beNat_lt [high, low]
      rw [UInt16.toNat_ofNat_of_lt' (hlt.trans_le (by decide))]
      exact beBytes_beNat [high, low]
    -- the head of the message is written as it was read
    have hframed : ∀ region, framed ⟨ty, ⟨code⟩, .ofNat (beNat [high, low]), rest.take (first &&& 0x0f).toNat, opts, payload⟩
        region = first :: code :: high :: low :: (rest.take (first &&& 0x0f).toNat ++ region) := by
      intro region
      simp only [framed, hid, hlen, UInt8.ofNat_toNat, toByte_of_tryFrom hty,
        first_byte_of_version (ensure_eq_ok.mp hversion)]
      simp
    refine ⟨_, encode_eq_ok.mpr ⟨hlen.trans_le htoken, encoded, ?_, rfl⟩, ?_⟩
    · rw [sortedOptions_of_pairwise hsorted]
      exact hencoded
    · rw [hframed]
      rcases hsplit with hsplit | ⟨rfl, hsplit⟩
      · exact .inl (by rw [← hsplit, take_append_drop])
      · refine .inr ⟨rfl, ?_⟩
        rw [ending, if_pos rfl, append_nil, cons_append, cons_append, cons_append, cons_append,
          append_assoc, ← hsplit, take_append_drop]
  · cases h

/-- An encoded message without payload, and the marker of one after it. -/
def BareMarker (bytes : Bytes) : Prop :=
  ∃ (message : CoapMessage) (body : Bytes), message.payload = [] ∧ message.encode = .ok body ∧ bytes = body ++ [0xff]

theorem decode_bareMarker {body : Bytes} (hpayload : m.payload = []) (h : m.encode = .ok body) :
    CoapMessage.decode (body ++ [0xff]) = .ok { m with options := sortedOptions m.options } := by
  obtain ⟨htoken, opts, hopts, rfl⟩ := encode_eq_ok.mp h
  have hmarker : ∀ number, decodeOptions number [0xff] = .ok ([], []) := fun number => by rw [decodeOptions, if_pos rfl]
  have hframed : framed m (opts ++ ending m.payload) ++ [0xff] = framed m (opts ++ [0xff]) := by
    simp [framed, ending, hpayload]
  rw [hframed, decode_framed htoken (decodeOptions_append hopts hmarker), hpayload]

theorem encode_sortedOptions {body : Bytes} (h : m.encode = .ok body) :
    CoapMessage.encode { m with options := sortedOptions m.options } = .ok body := by
  obtain ⟨htoken, opts, hopts, rfl⟩ := encode_eq_ok.mp h
  refine encode_eq_ok.mpr ⟨htoken, opts, ?_, rfl⟩
  rw [sortedOptions_of_pairwise (sortedOptions_stable _).1]
  exact hopts

theorem encode_eq_iff_not_bareMarker (h : CoapMessage.decode bytes = .ok m) : m.encode = .ok bytes ↔ ¬ BareMarker bytes := by
  constructor
  · rintro henc ⟨sent, body, hpayload, hbody, rfl⟩
    cases (decode_bareMarker hpayload hbody).symm.trans h
    have hlen := congrArg List.length (ok_unique (encode_sortedOptions hbody) henc)
    simp at hlen
  · intro hnot
    obtain ⟨body, hbody, rfl | ⟨hpayload, rfl⟩⟩ := encode_of_decode h
    · exact hbody
    · exact absurd ⟨m, body, hpayload, hbody, rfl⟩ hnot

/-- What is accepted is encoded as it was, and by nothing else, exactly if it does
not end in a marker without a payload; with such a marker it is accepted too. -/
theorem coap_decoding_is_injective_iff (bytes : Bytes) :
    (∀ message, CoapMessage.decode bytes = .ok message →
      (message.encode = .ok bytes ↔ ¬ BareMarker bytes) ∧
        ∀ bytes', CoapMessage.decode bytes' = .ok message → ¬ BareMarker bytes → ¬ BareMarker bytes' →
          bytes = bytes') ∧
      (BareMarker bytes → ∃ message, CoapMessage.decode bytes = .ok message) := by
  refine ⟨?_, ?_⟩
  · intro message h
    refine ⟨encode_eq_iff_not_bareMarker h, ?_⟩
    intro bytes' h' hnot hnot'
    have hencode := (encode_eq_iff_not_bareMarker h).mpr hnot
    have hencode' := (encode_eq_iff_not_bareMarker h').mpr hnot'
    exact ok_unique hencode hencode'
  · rintro ⟨message, body, hpayload, hbody, rfl⟩
    exact ⟨_, decode_bareMarker hpayload hbody⟩

def emptyMessage : CoapMessage := ⟨.confirmable, .empty, 0, [], [], []⟩

/-- The marker at the end is not written again. -/
theorem coap_decoding_is_not_injective : CoapMessage.decode [0x40, 0, 0, 0, 0xff] = .ok emptyMessage ∧
    CoapMessage.decode [0x40, 0, 0, 0] = .ok emptyMessage ∧ emptyMessage.encode ≠ .ok [0x40, 0, 0, 0, 0xff] := by
  have hencode : emptyMessage.encode = .ok [0x40, 0, 0, 0] := rfl
  refine ⟨decode_bareMarker rfl hencode, decode_encode hencode, ?_⟩
  rw [hencode]
  decide

/-- A POST to c/jf with a token, an option after the path and a payload. -/
def postMessage : CoapMessage :=
  ⟨.confirmable, .post, 0x1234, [7, 8], [⟨11, [99]⟩, ⟨11, [106, 102]⟩, ⟨60, [1]⟩], [2, 3]⟩

def postBytes : Bytes := [0x42, 2, 0x12, 0x34, 7, 8, 0xb1, 99, 2, 106, 102, 0xd1, 36, 1, 0xff, 2, 3]

theorem coap_decoding_is_injective_post : CoapMessage.decode postBytes = .ok postMessage ∧
    ¬ BareMarker postBytes ∧ ∀ bytes, CoapMessage.decode bytes = .ok postMessage → ¬ BareMarker bytes → postBytes = bytes := by
  have hencode : postMessage.encode = .ok postBytes := by decide +kernel
  have hdecode : CoapMessage.decode postBytes = .ok postMessage := decode_encode hencode
  obtain ⟨hiff, hunique⟩ := (coap_decoding_is_injective_iff postBytes).1 postMessage hdecode
  have hmarker := hiff.mp hencode
  exact ⟨hdecode, hmarker, fun bytes h hnot => hunique bytes h hmarker hnot⟩

end Canonical

end ThreadCommissioner.CoapLaws
