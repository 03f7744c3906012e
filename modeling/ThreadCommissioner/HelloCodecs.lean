import ThreadCommissioner.Hellos

namespace ThreadCommissioner.HelloCodecs

open ByteStrings Computations Errors Framing Hellos List Readers

theorem validateU8Len_eq_ok {len : ℕ} {field : String} : validateU8Len len field = .ok () ↔ len ≤ 255 := by
  unfold validateU8Len
  split <;> simp <;> omega

theorem validateU16Len_eq_ok {len : ℕ} {field : String} : validateU16Len len field = .ok () ↔ len ≤ 65535 := by
  unfold validateU16Len
  split <;> simp <;> omega

theorem validateExtensions_eq_ok {exts : List TlsExtension} :
    (exts.forM fun ext => validateU16Len ext.data.length "TLS extension") = .ok () ↔
      ∀ ext ∈ exts, ext.data.length ≤ 65535 := by
  refine ⟨fun h => ?_, validateExtensions⟩
  induction exts with
  | nil => exact forall_mem_nil _
  | cons ext rest ih =>
    rw [List.forM] at h
    obtain ⟨_, hfirst, hrest⟩ := bind_ok.mp h
    exact forall_mem_cons.mpr ⟨validateU16Len_eq_ok.mp hfirst, ih hrest⟩

theorem appendExtensions_eq_ok {out encoded : Bytes} {extensions : List TlsExtension} :
    appendExtensions out extensions = .ok encoded ↔
      ExtensionsFit extensions ∧ encoded = out ++ extensionBlock extensions := by
  constructor
  · intro h
    obtain ⟨_, heach, h⟩ := bind_ok.mp h
    obtain ⟨_, htotal, h⟩ := bind_ok.mp h
    cases h
    exact ⟨⟨validateExtensions_eq_ok.mp heach, validateU16Len_eq_ok.mp htotal⟩, rfl⟩
  · rintro ⟨hfit, rfl⟩
    exact appendExtensions_of_fits hfit out

theorem extensionsFit_nil : ExtensionsFit [] := ⟨forall_mem_nil _, Nat.zero_le _⟩

section Extensions

variable {bs rest : Bytes} {exts : List TlsExtension}

theorem eq_bytes_of_next {ext : TlsExtension} (h : extensionFramer.next bs = .ok (ext, rest)) :
    ext.data.length ≤ 65535 ∧ bs = ext.bytes ++ rest := by
  change Reader.next readExtension bs = _ at h
  simp only [Reader.next] at h
  split at h
  · next hr =>
    cases h
    obtain ⟨type, s, ht, hr⟩ := bind_eq_ok.mp hr
    obtain ⟨data, s', hd, hr⟩ := bind_eq_ok.mp hr
    cases hr
    obtain ⟨hfit, hdata⟩ := eq_of_readVecU16 hd
    exact ⟨hfit, by rw [eq_of_readU16 ht, hdata, TlsExtension.bytes, append_assoc, append_assoc]⟩
  · cases h

theorem readExtensions_cases (h : readExtensions.run bs = .ok exts rest) :
    (exts = [] ∧ bs = [] ∧ rest = []) ∨ (ExtensionsFit exts ∧ bs = extensionBlock exts ++ rest) := by
  rw [readExtensions, bind_of_ok (remaining_run _)] at h
  split at h
  · next hl =>
    cases h
    exact .inl ⟨rfl, length_eq_zero_iff.mp hl, length_eq_zero_iff.mp hl⟩
  · obtain ⟨block, s, hblock, hlift⟩ := bind_eq_ok.mp h
    obtain ⟨hfit, hbs⟩ := eq_of_readVecU16 hblock
    obtain ⟨hall, rfl⟩ := lift_eq_ok.mp hlift
    have hwritten := Framer.eq_flatMap (fun hn => (eq_bytes_of_next hn).2) hall
    have heach := Framer.forall_of_all (fun hn => (eq_bytes_of_next hn).1) hall
    subst hwritten
    exact .inr ⟨⟨heach, hfit⟩, by rw [hbs, extensionBlock, append_assoc]⟩

end Extensions

theorem flatMap_cipherSuitesOf {bs : Bytes} (h : bs.length % 2 = 0) :
    (cipherSuitesOf bs).flatMap (fun suite => beBytes 2 suite.toNat) = bs := by
  fun_induction cipherSuitesOf bs with
  | case1 a b rest ih =>
    have hlt : beNat [a, b] < 2 ^ 16 := (beNat_lt [a, b]).trans_le (show 256 ^ 2 ≤ 2 ^ 16 by decide)
    have hpair : beBytes 2 (beNat [a, b]) = [a, b] := beBytes_beNat [a, b]
    have heven : rest.length % 2 = 0 := by
      simp only [length_cons] at h
      omega
    rw [flatMap_cons, UInt16.toNat_ofNat_of_lt' hlt, hpair, ih heven]
    rfl
  | case2 bs hbs =>
    match bs, h, hbs with
    | [], _, _ => rfl
    | a :: b :: rest, _, hbs => exact absurd rfl (hbs a b rest)

/-- Encoding and decoding are inverse to each other, where `Omitted x bytes`
marks the decodable `bytes` that lack the block of `x`'s extensions. -/
structure Inverse {α : Type} (encode : α → Except DtlsError Bytes) (decode : Bytes → Except DtlsError α)
    (Fits : α → Prop) (Omitted : α → Bytes → Prop) : Prop where
  encodes_iff : ∀ x, (∃ bytes, encode x = .ok bytes) ↔ Fits x
  decode_encode : ∀ {x bytes}, encode x = .ok bytes → decode bytes = .ok x
  encode_decode : ∀ {x bytes}, decode bytes = .ok x →
    encode x = .ok bytes ∨ Omitted x bytes ∧ encode x = .ok (bytes ++ [0, 0])

theorem Inverse.of_forms {α : Type} {encode : α → Except DtlsError Bytes} {decode : Bytes → Except DtlsError α}
    {Fits : α → Prop} {Omitted : α → Bytes → Prop} {form : α → Bytes}
    (henc : ∀ {x bytes}, encode x = .ok bytes ↔ Fits x ∧ bytes = form x)
    (hdec : ∀ {x bytes}, decode bytes = .ok x ↔ Fits x ∧ (bytes = form x ∨ Omitted x bytes))
    (homitted : ∀ {x bytes}, Omitted x bytes → form x = bytes ++ [0, 0]) : Inverse encode decode Fits Omitted where
  encodes_iff x := ⟨fun ⟨_, h⟩ => (henc.mp h).1, fun h => ⟨form x, henc.mpr ⟨h, rfl⟩⟩⟩
  decode_encode h := hdec.mpr ⟨(henc.mp h).1, .inl (henc.mp h).2⟩
  encode_decode {x bytes} h := by
    obtain ⟨hfits, rfl | homit⟩ := hdec.mp h
    · exact .inl (henc.mpr ⟨hfits, rfl⟩)
    · exact .inr ⟨homit, henc.mpr ⟨hfits, (homitted homit).symm⟩⟩

section ClientHello

variable {hello : ClientHello} {bytes : Bytes}

theorem clientHello_encode_eq_ok : hello.encode = .ok bytes ↔ hello.Fits ∧ bytes = hello.bytes := by
  constructor
  · intro h
    obtain ⟨_, hsess, h⟩ := bind_ok.mp h
    obtain ⟨_, hcookie, h⟩ := bind_ok.mp h
    obtain ⟨_, hmethods, h⟩ := bind_ok.mp h
    obtain ⟨_, hsuites, h⟩ := bind_ok.mp h
    obtain ⟨hexts, hbytes⟩ := appendExtensions_eq_ok.mp h
    refine ⟨⟨validateU8Len_eq_ok.mp hsess, validateU8Len_eq_ok.mp hcookie, validateU16Len_eq_ok.mp hsuites,
      validateU8Len_eq_ok.mp hmethods, hexts⟩, ?_⟩
    rw [hbytes, ClientHello.bytes_eq_append]
    rfl
  · rintro ⟨hfits, rfl⟩
    exact ClientHello.encode_of_fits hfits

def ClientOmitted (hello : ClientHello) (bytes : Bytes) : Prop :=
  hello.extensions = [] ∧ bytes = hello.fields

theorem clientHello_forms_of_decode (h : ClientHello.decode bytes = .ok hello) :
    hello.Fits ∧ (bytes = hello.bytes ∨ ClientOmitted hello bytes) := by
  obtain ⟨rest, h⟩ := read_eq_ok h
  obtain ⟨version, s, hversion, h⟩ := bind_eq_ok.mp h
  split at h
  · cases h
  next hdtls =>
  obtain ⟨random, s, hrandom, h⟩ := bind_eq_ok.mp h
  obtain ⟨sid, s, hsess, h⟩ := bind_eq_ok.mp h
  obtain ⟨cookie, s, hcookie, h⟩ := bind_eq_ok.mp h
  obtain ⟨suites, s, hsuites, h⟩ := bind_eq_ok.mp h
  split at h
  · cases h
  next heven =>
  obtain ⟨methods, block, hmethods, h⟩ := bind_eq_ok.mp h
  obtain ⟨exts, s, hexts, h⟩ := bind_eq_ok.mp h
  obtain ⟨_, s, hfinish, h⟩ := bind_eq_ok.mp h
  cases h
  obtain ⟨hsessionFits, hsess⟩ := eq_of_readVecU8 hsess
  obtain ⟨hcookieFits, hcookie⟩ := eq_of_readVecU8 hcookie
  obtain ⟨hsuitesFit, hsuites⟩ := eq_of_readVecU16 hsuites
  obtain ⟨hmethodsFit, hmethods⟩ := eq_of_readVecU8 hmethods
  have hpairs := flatMap_cipherSuitesOf (not_not.mp heven)
  have hcount : (cipherSuitesOf suites).length * 2 = suites.length := by
    rw [← length_cipherSuites, hpairs]
  have hfields : bytes = ClientHello.fields ⟨random, sid, cookie, cipherSuitesOf suites, methods, exts⟩ ++ block := by
    rw [eq_of_readU16 hversion, eq_of_readArray hrandom, hsess, hcookie, hsuites, hmethods, not_not.mp hdtls]
    simp [ClientHello.fields, hpairs, hcount]
  have hcountFits : (cipherSuitesOf suites).length * 2 ≤ 65535 := hcount ▸ hsuitesFit
  rw [eq_nil_of_finish hfinish] at hexts
  rcases readExtensions_cases hexts with ⟨rfl, rfl, _⟩ | ⟨hfit, hblock⟩
  · refine ⟨⟨hsessionFits, hcookieFits, hcountFits, hmethodsFit, extensionsFit_nil⟩, .inr ⟨rfl, ?_⟩⟩
    rw [hfields, append_nil]
  · refine ⟨⟨hsessionFits, hcookieFits, hcountFits, hmethodsFit, hfit⟩, .inl ?_⟩
    rw [hfields, hblock, ClientHello.bytes_eq_append, append_nil]

theorem clientHello_decode_eq_ok :
    ClientHello.decode bytes = .ok hello ↔ hello.Fits ∧ (bytes = hello.bytes ∨ ClientOmitted hello bytes) := by
  refine ⟨clientHello_forms_of_decode, ?_⟩
  rintro ⟨hfits, rfl | ⟨habsent, rfl⟩⟩
  · exact ClientHello.decode_bytes hfits
  · rw [← append_nil hello.fields]
    apply ClientHello.decode_fields_append hfits
    rw [habsent, readExtensions_nil]

theorem ClientOmitted.bytes_eq (h : ClientOmitted hello bytes) : hello.bytes = bytes ++ [0, 0] := by
  rw [hello.bytes_eq_append, h.1, h.2]
  rfl

end ClientHello

section ServerHello

variable {hello : ServerHello} {bytes : Bytes}

def ServerFits (hello : ServerHello) : Prop := hello.sessionId.length ≤ 255 ∧ ExtensionsFit hello.extensions

theorem serverHello_encode_eq_ok : hello.encode = .ok bytes ↔ ServerFits hello ∧ bytes = hello.bytes := by
  constructor
  · intro h
    obtain ⟨_, hsess, h⟩ := bind_ok.mp h
    obtain ⟨hexts, hbytes⟩ := appendExtensions_eq_ok.mp h
    refine ⟨⟨validateU8Len_eq_ok.mp hsess, hexts⟩, ?_⟩
    rw [hbytes, hello.bytes_eq_append]
    rfl
  · rintro ⟨hfits, rfl⟩
    exact ServerHello.encode_of_fits hfits.1 hfits.2

def ServerOmitted (hello : ServerHello) (bytes : Bytes) : Prop := hello.extensions = [] ∧ bytes = hello.fields

theorem serverHello_forms_of_decode (h : ServerHello.decode bytes = .ok hello) :
    ServerFits hello ∧ (bytes = hello.bytes ∨ ServerOmitted hello bytes) := by
  obtain ⟨rest, h⟩ := read_eq_ok h
  obtain ⟨version, s, hversion, h⟩ := bind_eq_ok.mp h
  split at h
  · cases h
  next hdtls =>
  obtain ⟨random, s, hrandom, h⟩ := bind_eq_ok.mp h
  obtain ⟨sid, s, hsess, h⟩ := bind_eq_ok.mp h
  obtain ⟨suite, s, hsuite, h⟩ := bind_eq_ok.mp h
  obtain ⟨method, block, hmethod, h⟩ := bind_eq_ok.mp h
  obtain ⟨exts, s, hexts, h⟩ := bind_eq_ok.mp h
  obtain ⟨_, s, hfinish, h⟩ := bind_eq_ok.mp h
  cases h
  obtain ⟨hsessionFits, hsess⟩ := eq_of_readVecU8 hsess
  have hfields : bytes = ServerHello.fields ⟨random, sid, suite, method, exts⟩ ++ block := by
    rw [eq_of_readU16 hversion, eq_of_readArray hrandom, hsess, eq_of_readU16 hsuite, eq_of_readU8 hmethod, not_not.mp hdtls]
    simp [ServerHello.fields]
  rw [eq_nil_of_finish hfinish] at hexts
  rcases readExtensions_cases hexts with ⟨rfl, rfl, _⟩ | ⟨hfit, hblock⟩
  · exact ⟨⟨hsessionFits, extensionsFit_nil⟩, .inr ⟨rfl, by rw [hfields, append_nil]⟩⟩
  · refine ⟨⟨hsessionFits, hfit⟩, .inl ?_⟩
    rw [hfields, hblock, ServerHello.bytes_eq_append, append_nil]

theorem serverHello_decode_eq_ok :
    ServerHello.decode bytes = .ok hello ↔ ServerFits hello ∧ (bytes = hello.bytes ∨ ServerOmitted hello bytes) := by
  refine ⟨serverHello_forms_of_decode, ?_⟩
  rintro ⟨hfits, rfl | ⟨habsent, rfl⟩⟩
  · exact ServerHello.decode_bytes hfits.1 hfits.2
  · rw [← append_nil hello.fields]
    apply ServerHello.decode_fields_append hfits.1
    rw [habsent, readExtensions_nil]

theorem ServerOmitted.bytes_eq (h : ServerOmitted hello bytes) : hello.bytes = bytes ++ [0, 0] := by
  rw [hello.bytes_eq_append, h.1, h.2]
  rfl

end ServerHello

section HelloVerifyRequest

variable {req : HelloVerifyRequest} {bytes : Bytes}

theorem helloVerifyRequest_encode_eq_ok : req.encode = .ok bytes ↔ req.cookie.length ≤ 255 ∧ bytes = req.bytes := by
  constructor
  · intro h
    obtain ⟨_, hcookie, h⟩ := bind_ok.mp h
    cases h
    exact ⟨validateU8Len_eq_ok.mp hcookie, rfl⟩
  · rintro ⟨hfits, rfl⟩
    exact HelloVerifyRequest.encode_of_le hfits

theorem helloVerifyRequest_decode_eq_ok :
    HelloVerifyRequest.decode bytes = .ok req ↔ req.cookie.length ≤ 255 ∧ bytes = req.bytes := by
  constructor
  · intro h
    obtain ⟨rest, h⟩ := read_eq_ok h
    obtain ⟨version, s, hversion, h⟩ := bind_eq_ok.mp h
    obtain ⟨cookie, s, hcookie, h⟩ := bind_eq_ok.mp h
    obtain ⟨_, s, hfinish, h⟩ := bind_eq_ok.mp h
    cases h
    obtain ⟨hfits, hcookie⟩ := eq_of_readVecU8 hcookie
    refine ⟨hfits, ?_⟩
    rw [eq_of_readU16 hversion, hcookie, eq_nil_of_finish hfinish, append_nil]
    rfl
  · rintro ⟨hfits, rfl⟩
    exact HelloVerifyRequest.decode_bytes hfits

end HelloVerifyRequest

/-- The three hello messages are written and read back without loss, and only a
hello without its extensions block has a second form. -/
theorem hello_codecs_are_inverse :
    Inverse ClientHello.encode ClientHello.decode ClientHello.Fits ClientOmitted ∧
      Inverse ServerHello.encode ServerHello.decode ServerFits ServerOmitted ∧
      Inverse HelloVerifyRequest.encode HelloVerifyRequest.decode (fun request => request.cookie.length ≤ 255)
        fun _ _ => False := by
  refine ⟨?_, ?_, ?_⟩
  · exact .of_forms clientHello_encode_eq_ok clientHello_decode_eq_ok ClientOmitted.bytes_eq
  · exact .of_forms serverHello_encode_eq_ok serverHello_decode_eq_ok ServerOmitted.bytes_eq
  · refine .of_forms helloVerifyRequest_encode_eq_ok ?_ ?_
    · intro request bytes
      rw [or_false]
      exact helloVerifyRequest_decode_eq_ok
    · exact False.elim

end ThreadCommissioner.HelloCodecs
