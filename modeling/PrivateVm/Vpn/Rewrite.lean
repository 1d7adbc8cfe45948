import PrivateVm.Basic.NetipText
import PrivateVm.Vpn.Profile
import Mathlib.Data.Option.Basic

set_option autoImplicit false

/-! # The text for a guest is a profile again

The configuration that `withResolvedConfig` renders is read back as the profile it was rendered
from, with the resolved address as its endpoint (`rewritten_profile`). That Go's library reads back
what it has printed is a hypothesis, for the values of the profile (`RoundTrips`).
-/

namespace PrivateVm.Vpn

open Netip Checked Text List Option

/-! ## Lists of values -/

section

variable {α : Type} [DecidableEq α] {parse : List Char → Option α} {safe : α → Bool}

/-- What is collected is safe, without repetition, and as long as the list. -/
theorem collectDistinct_sound {parts values result}
    (h : collectDistinct parse safe parts values = some result)
    (hsafe : ∀ v ∈ values, safe v = true) (hnd : values.Nodup) :
    (∀ v ∈ result, safe v = true) ∧ result.Nodup ∧
      result.length = values.length + parts.length := by
  induction parts generalizing values with
  | nil =>
    cases h
    exact ⟨hsafe, hnd, rfl⟩
  | cons part parts ih =>
    simp only [collectDistinct, bind_eq_bind, bind_eq_some_iff, guard_eq_some'] at h
    obtain ⟨v, -, -, ⟨hv, hnew⟩, h⟩ := h
    have hsafe' := forall_mem_append.2 ⟨hsafe, forall_mem_singleton.2 hv⟩
    have hnd' : (values ++ [v]).Nodup := by simpa [nodup_append, hnd, imp_not_comm] using hnew
    obtain ⟨hall, hdist, hlen⟩ := ih h hsafe' hnd'
    refine ⟨hall, hdist, hlen.trans ?_⟩
    simp only [length_append, length_cons, length_nil]
    omega

/-- Values that are safe and without repetition are collected from their texts. -/
theorem collectDistinct_map {print : α → List Char} {new values}
    (hparse : ∀ v ∈ new, parse (print v) = some v) (hsafe : ∀ v ∈ new, safe v = true)
    (hnd : (values ++ new).Nodup) :
    collectDistinct parse safe (new.map print) values = some (values ++ new) := by
  induction new generalizing values with
  | nil => simp [collectDistinct]
  | cons v new ih =>
    obtain ⟨hpars, hparse⟩ := forall_mem_cons.1 hparse
    obtain ⟨hsafev, hsafe⟩ := forall_mem_cons.1 hsafe
    have hnew : v ∉ values := fun hv => (nodup_append.1 hnd).2.2 v hv v mem_cons_self rfl
    have ih := @ih (values ++ [v]) hparse hsafe (by simpa using hnd)
    rw [append_assoc] at ih
    simp only [map_cons, collectDistinct, bind_eq_bind, bind_eq_some_iff, guard_eq_some']
    exact ⟨v, hpars, (), ⟨hsafev, hnew⟩, ih⟩

end

variable {parts : List (List Char)} {maximum : Nat} {a : Addr}

/-- Tokens with commas between them are split again. -/
theorem splitCSV_commaSeparated (hne : parts ≠ []) (hlen : parts.length ≤ maximum)
    (hparts : ∀ part ∈ parts, Token part) :
    splitCSV (commaSeparated parts) maximum = some parts := by
  have hspl := splitOn_commaSeparated hne (fun part hpart => (hparts part hpart).comma)
    fun part hpart => (hparts part hpart).trimmed
  have hcnt : ((commaSeparated parts).splitOn ',').length = parts.length := by
    rw [← length_map trimSpace, hspl]
  simp only [splitCSV, hspl, hcnt, bind_eq_bind, bind_eq_some_iff, guard_eq_some']
  refine ⟨(), ⟨mt length_eq_zero_iff.1 hne, hlen⟩, (), ?_, rfl⟩
  exact fun part hpart => (hparts part hpart).nonempty

theorem splitCSV_length {value} (h : splitCSV value maximum = some parts) :
    parts ≠ [] ∧ parts.length ≤ maximum := by
  simp only [splitCSV, bind_eq_bind, bind_eq_some_iff, guard_eq_some'] at h
  obtain ⟨-, ⟨hne, hle⟩, -, -, h⟩ := h
  cases h
  rw [length_map]
  exact ⟨fun hnil => hne (by simpa using congrArg List.length hnil), hle⟩

/-! ## Sound profiles -/

/-- A key that `decodeKey` accepts. -/
def SoundKey (key : List UInt8) : Prop := key.length = 32 ∧ key.any (· ≠ 0) = true

/-- What is known of a profile that was accepted. -/
structure Profile.Sound (p : Profile) : Prop where
  privateKey : SoundKey p.privateKey
  publicKey : SoundKey p.publicKey
  addresses : (∀ a ∈ p.addresses, safeInterfaceAddress a = true) ∧ p.addresses.Nodup ∧
    p.addresses ≠ [] ∧ p.addresses.length ≤ maximumAddresses ∧
    p.addresses.any (·.addr.is4) = true
  dnsServers : (∀ a ∈ p.dnsServers, (!a.is4In6 && safeDNSAddress a) = true) ∧
    p.dnsServers.Nodup ∧ p.dnsServers ≠ [] ∧ p.dnsServers.length ≤ maximumDNSServers
  v6 : usesV6 p.addresses p.dnsServers = true → p.allowedV6 = true

section

variable {codec : Codec} {value : List Char}

theorem decodeKey_sound {key} (h : decodeKey codec value = some key) : SoundKey key := by
  simp only [decodeKey, bind_eq_bind, bind_eq_some_iff, guard_eq_some'] at h
  obtain ⟨-, -, decoded, -, -, hsound, h⟩ := h
  cases h
  exact hsound

/-- What is collected from a list is not empty and not too long. -/
theorem collectDistinct_csv {α : Type} [DecidableEq α] {parse : List Char → Option α}
    {safe : α → Bool} {maximum : Nat} {parts result} (hparts : splitCSV value maximum = some parts)
    (h : collectDistinct parse safe parts [] = some result) :
    (∀ v ∈ result, safe v = true) ∧ result.Nodup ∧ result ≠ [] ∧ result.length ≤ maximum := by
  obtain ⟨hne, hle⟩ := splitCSV_length hparts
  obtain ⟨hsafe, hnd, hlen⟩ := collectDistinct_sound h (forall_mem_nil _) nodup_nil
  rw [length_nil, Nat.zero_add] at hlen
  refine ⟨hsafe, hnd, ?_, hlen ▸ hle⟩
  rintro rfl
  exact hne (length_eq_zero_iff.1 hlen.symm)

theorem parseAddresses_sound {addresses} (h : parseAddresses codec value = some addresses) :
    (∀ a ∈ addresses, safeInterfaceAddress a = true) ∧ addresses.Nodup ∧ addresses ≠ [] ∧
      addresses.length ≤ maximumAddresses ∧ addresses.any (·.addr.is4) = true := by
  simp only [parseAddresses, bind_eq_bind, bind_eq_some_iff, guard_eq_some'] at h
  obtain ⟨parts, hparts, result, hres, -, hv4, h⟩ := h
  cases h
  obtain ⟨hsafe, hnd, hne, hle⟩ := collectDistinct_csv hparts hres
  exact ⟨hsafe, hnd, hne, hle, hv4⟩

theorem parseDNS_sound {dnsServers} (h : parseDNS codec value = some dnsServers) :
    (∀ a ∈ dnsServers, (!a.is4In6 && safeDNSAddress a) = true) ∧ dnsServers.Nodup ∧
      dnsServers ≠ [] ∧ dnsServers.length ≤ maximumDNSServers := by
  simp only [parseDNS, bind_eq_bind, bind_eq_some_iff] at h
  obtain ⟨parts, hparts, hres⟩ := h
  exact collectDistinct_csv hparts hres

/-- **An accepted profile is sound.** -/
theorem parseText_sound {text p} (h : parseText codec text = .ok p) : p.Sound := by
  simp only [parseText, bind_eq_ok, failIf_eq_ok, ofOption_eq_ok, pure_eq_ok] at h
  obtain ⟨-, -, -, -, scan, -, -, -, _, -, privateKey, hpriv, _, -, addresses, haddrs, _, -,
    dnsServers, hdns, _, -, publicKey, hpubl, _, -, allowedV6, -, -, hv6, _, -, endpoint, -,
    rfl⟩ := h
  refine ⟨decodeKey_sound hpriv, decodeKey_sound hpubl, parseAddresses_sound haddrs,
    parseDNS_sound hdns, fun huses => ?_⟩
  by_contra hnot
  exact hv6 ⟨huses, hnot⟩

end

/-! ## The fields are read back -/

/-- The functions of Go's library read back what is printed of a profile and an address. -/
structure RoundTrips (codec : Codec) (p : Profile) (resolved : ResolvedEndpoint) : Prop where
  privateKey : codec.decode (base64 p.privateKey) = some p.privateKey
  publicKey : codec.decode (base64 p.publicKey) = some p.publicKey
  addresses : ∀ a ∈ p.addresses, codec.parsePrefix a.text = some a
  dnsServers : ∀ a ∈ p.dnsServers, codec.parseAddr a.text = some a
  defaultV4 : codec.parsePrefix (prefixFrom (.v4 0) 0).text = some (prefixFrom (.v4 0) 0)
  defaultV6 : codec.parsePrefix (prefixFrom (.v6 0 "") 0).text = some (prefixFrom (.v6 0 "") 0)
  endpoint : codec.parseAddr resolved.address.text = some resolved.address

/-- What is checked of an address in every place. -/
theorem safeTunnelAddress_plain (h : safeTunnelAddress a = true) : a.Plain := by
  simp only [safeTunnelAddress, Bool.and_eq_true, decide_eq_true_eq, Bool.not_eq_true'] at h
  exact ⟨h.1.1.1.1, h.1.1.1.2, h.1.1.2⟩

theorem ResolvedEndpoint.plain {resolved : ResolvedEndpoint} (h : resolved.valid = true) :
    resolved.address.Plain := by
  simp only [valid, publicEndpointAddress, Bool.and_eq_true, decide_eq_true_eq,
    Bool.not_eq_true'] at h
  exact ⟨h.1.1.1.1.1.1, h.1.1.1.1.1.2, h.1.1.1.1.2⟩

theorem safeInterfaceAddress_plain {a} (h : safeInterfaceAddress a = true) :
    a.isValid = true ∧ a.addr.Plain := by
  simp only [safeInterfaceAddress, Bool.and_eq_true] at h
  exact ⟨h.1.1, safeTunnelAddress_plain h.1.2⟩

section

variable {codec : Codec} {p : Profile} {resolved : ResolvedEndpoint} {key : List UInt8}

theorem SoundKey.token (h : SoundKey key) : Token (base64 key) := by
  have hchars : ∀ c ∈ '=' :: base64Digits, isToken c = true :=
    List.all_eq_true.1 (by decide)
  refine ⟨fun hnil => ?_, fun c hc => hchars c (base64_mem key c hc)⟩
  have hlen := length_base64 key
  rw [hnil, h.1] at hlen
  cases hlen

theorem SoundKey.decodeKey (h : SoundKey key) (hdec : codec.decode (base64 key) = some key) :
    decodeKey codec (base64 key) = some key := by
  have hlen : byteLength (base64 key) = 44 := by
    rw [(isASCII_of_isPrintable h.token.value.chars).byteLength, length_base64, h.1]
  simp only [Vpn.decodeKey, bind_eq_bind, bind_eq_some_iff, guard_eq_some']
  exact ⟨(), hlen, key, hdec, (), h, rfl⟩

namespace Profile.Sound

variable (h : p.Sound)

include h

theorem text_address {part} (hpart : part ∈ p.addresses.map Prefix.text) :
    Token part ∧ part.length ≤ 86 := by
  obtain ⟨a, ha, rfl⟩ := mem_map.1 hpart
  obtain ⟨hvalid, hplain⟩ := safeInterfaceAddress_plain (h.addresses.1 a ha)
  exact ⟨Prefix.token_text hvalid hplain, Prefix.length_text_le hvalid hplain⟩

theorem text_dns {part} (hpart : part ∈ p.dnsServers.map Addr.text) :
    Token part ∧ part.length ≤ 82 := by
  obtain ⟨a, ha, rfl⟩ := mem_map.1 hpart
  have hplain := safeTunnelAddress_plain (Bool.and_eq_true_iff.1 (h.dnsServers.1 a ha)).2
  exact ⟨hplain.token, hplain.length_le⟩

theorem parseAddresses (hrnd : RoundTrips codec p resolved) :
    parseAddresses codec (commaSeparated (p.addresses.map Prefix.text)) = some p.addresses := by
  obtain ⟨hsafe, hnd, hne, hle, hv4⟩ := h.addresses
  have hspl : splitCSV (commaSeparated (p.addresses.map Prefix.text)) maximumAddresses =
      some (p.addresses.map Prefix.text) :=
    splitCSV_commaSeparated (mt map_eq_nil_iff.1 hne) (by simpa using hle)
      fun _ hpart => (h.text_address hpart).1
  have hcoll : collectDistinct codec.parsePrefix safeInterfaceAddress
      (p.addresses.map Prefix.text) [] = some p.addresses :=
    collectDistinct_map hrnd.addresses hsafe hnd
  simp only [Vpn.parseAddresses, bind_eq_bind, bind_eq_some_iff, guard_eq_some']
  exact ⟨_, hspl, _, hcoll, (), hv4, rfl⟩

theorem parseDNS (hrnd : RoundTrips codec p resolved) :
    parseDNS codec (commaSeparated (p.dnsServers.map Addr.text)) = some p.dnsServers := by
  obtain ⟨hsafe, hnd, hne, hle⟩ := h.dnsServers
  have hspl : splitCSV (commaSeparated (p.dnsServers.map Addr.text)) maximumDNSServers =
      some (p.dnsServers.map Addr.text) :=
    splitCSV_commaSeparated (mt map_eq_nil_iff.1 hne) (by simpa using hle)
      fun _ hpart => (h.text_dns hpart).1
  simp only [Vpn.parseDNS, bind_eq_bind, bind_eq_some_iff]
  exact ⟨_, hspl, collectDistinct_map hrnd.dnsServers hsafe hnd⟩

theorem value_address : Value (commaSeparated (p.addresses.map Prefix.text)) :=
  .commaSeparated (mt map_eq_nil_iff.1 h.addresses.2.2.1)
    fun _ hpart => (h.text_address hpart).1

theorem value_dns : Value (commaSeparated (p.dnsServers.map Addr.text)) :=
  .commaSeparated (mt map_eq_nil_iff.1 h.dnsServers.2.2.1)
    fun _ hpart => (h.text_dns hpart).1

end Profile.Sound

def routes (allowedV6 : Bool) : List (List Char) :=
  (prefixFrom (.v4 0) 0).text :: if allowedV6 then [(prefixFrom (.v6 0 "") 0).text] else []

theorem writeAllowedIPs_eq (allowedV6 : Bool) :
    writeAllowedIPs allowedV6 = commaSeparated (routes allowedV6) := by
  cases allowedV6 <;> decide +kernel

theorem token_routes (allowedV6 : Bool) : ∀ part ∈ routes allowedV6, Token part := by
  have hv4 : Token (prefixFrom (.v4 0) 0).text := Prefix.token_text rfl ⟨rfl, rfl, rfl⟩
  have hv6 : Token (prefixFrom (.v6 0 "") 0).text :=
    Prefix.token_text rfl ⟨rfl, rfl, by decide +kernel⟩
  cases allowedV6 with
  | false => exact forall_mem_cons.2 ⟨hv4, forall_mem_nil _⟩
  | true => exact forall_mem_cons.2 ⟨hv4, forall_mem_cons.2 ⟨hv6, forall_mem_nil _⟩⟩

theorem RoundTrips.parseAllowedIPs (hrnd : RoundTrips codec p resolved) (allowedV6 : Bool) :
    parseAllowedIPs codec (writeAllowedIPs allowedV6) = some allowedV6 := by
  have hlen : (routes allowedV6).length ≤ 2 := by cases allowedV6 <;> decide +kernel
  have hspl : splitCSV (writeAllowedIPs allowedV6) 2 = some (routes allowedV6) := by
    rw [writeAllowedIPs_eq]
    exact splitCSV_commaSeparated (cons_ne_nil _ _) hlen (token_routes allowedV6)
  have hv4 := (guard_eq_some' ()).2 hrnd.defaultV4
  have hv6 := (guard_eq_some' ()).2 hrnd.defaultV6
  refine bind_eq_some_iff.2 ⟨_, hspl, ?_⟩
  cases allowedV6 with
  | false => exact bind_eq_some_iff.2 ⟨(), hv4, rfl⟩
  | true =>
    exact bind_eq_some_iff.2 ⟨(), hv4, bind_eq_some_iff.2 ⟨(), hv6, rfl⟩⟩

theorem parsePort_toDigits {port} (hport : port ≠ 0) :
    parsePort (Nat.toDigits 10 port.toNat) = some port := by
  have hdig : (Nat.toDigits 10 port.toNat).all Char.isDigit = true :=
    List.all_eq_true.2 fun c hc => isDigit_of_mem_toDigits hc
  have hne : port.toNat ≠ 0 := fun h => hport (UInt16.toNat_inj.1 h)
  simp only [parsePort, Nat.ofDigitChars_ten_toDigits, bind_eq_bind,
    bind_eq_some_iff, guard_eq_some']
  refine ⟨(), ⟨Nat.toDigits_ne_nil, hdig⟩, (), ⟨port.toNat_lt, hne⟩, ?_⟩
  exact congrArg some UInt16.ofNat_toNat

theorem ne_of_mem_toDigits {n : Nat} {c} (h : c ∈ Nat.toDigits 10 n) :
    c ≠ ':' ∧ c ≠ '[' ∧ c ≠ ']' := by
  have hdgt := isDigit_of_mem_toDigits h
  refine ⟨?_, ?_, ?_⟩ <;>
    · rintro rfl
      cases hdgt

section

variable (hvalid : resolved.valid = true)

include hvalid

/-- The host and the port of an endpoint that was written. -/
theorem splitHostPort_writeEndpoint :
    splitHostPort (writeEndpoint resolved) =
      some (resolved.address.text, Nat.toDigits 10 resolved.port.toNat) := by
  have hplain := ResolvedEndpoint.plain hvalid
  have hport : ∀ c ∈ Nat.toDigits 10 resolved.port.toNat, c ≠ ':' ∧ c ≠ '[' ∧ c ≠ ']' :=
    fun c hc => ne_of_mem_toDigits hc
  have hbr : ∀ c ∈ resolved.address.text, c ≠ '[' ∧ c ≠ ']' := by
    intro c hc
    have hchar := hplain.isAddrChar hc
    refine ⟨?_, ?_⟩ <;>
      · rintro rfl
        exact absurd hchar (by decide)
  cases haddr : resolved.address with
  | zero =>
    rw [haddr] at hplain
    cases hplain.valid
  | v4 =>
    rw [haddr] at hbr
    simp only [writeEndpoint, haddr]
    refine splitHostPort_plain (fun c hc => ⟨?_, hbr c hc⟩) hport
    rcases Addr.mem_text4 hc with hdgt | hdot
    · rintro rfl
      cases hdgt
    · rw [hdot]
      decide
  | v6 bits z =>
    rw [haddr] at hbr
    have hwr : writeEndpoint resolved =
        '[' :: (Addr.v6 bits z).text ++ ']' :: ':' :: Nat.toDigits 10 resolved.port.toNat := by
      simp [writeEndpoint, haddr, Addr.is6]
    rw [hwr]
    exact splitHostPort_brackets hbr hport

theorem token_writeEndpoint : Token (writeEndpoint resolved) := by
  have htext := (ResolvedEndpoint.plain hvalid).token
  refine ⟨by simp [writeEndpoint], fun c hc => ?_⟩
  simp only [writeEndpoint, mem_append, mem_cons] at hc
  rcases hc with hc | rfl | hc
  · split at hc
    · simp only [cons_append, mem_cons, mem_append, not_mem_nil, or_false] at hc
      rcases hc with rfl | hc | rfl
      · decide
      · exact htext.chars c hc
      · decide
    · exact htext.chars c hc
  · decide
  · exact isToken_of_isDigit (isDigit_of_mem_toDigits hc)

theorem length_writeEndpoint_le : (writeEndpoint resolved).length ≤ 90 := by
  have htext := (ResolvedEndpoint.plain hvalid).length_le
  have hdig : (Nat.toDigits 10 resolved.port.toNat).length ≤ 5 := by
    refine (Nat.length_toDigits_le_iff (by decide) (by decide)).2 ?_
    exact resolved.port.toNat_lt.trans (by decide)
  simp only [writeEndpoint, length_append, length_cons]
  split
  · simp
    omega
  · omega

theorem parseEndpoint_writeEndpoint
    (hparse : codec.parseAddr resolved.address.text = some resolved.address) :
    parseEndpoint codec (writeEndpoint resolved) = some ⟨[], resolved.address, resolved.port⟩ := by
  obtain ⟨haddr, hport⟩ := Bool.and_eq_true_iff.1 hvalid
  have hplain := ResolvedEndpoint.plain hvalid
  have hlen : byteLength (writeEndpoint resolved) ≤ 512 := by
    rw [(isASCII_of_isPrintable (token_writeEndpoint hvalid).value.chars).byteLength]
    exact (length_writeEndpoint_le hvalid).trans (by decide)
  have hport : parsePort (Nat.toDigits 10 resolved.port.toNat) = some resolved.port :=
    parsePort_toDigits (by simpa using hport)
  simp only [parseEndpoint, bind_eq_bind, bind_eq_some_iff, guard_eq_some']
  refine ⟨(), hlen, _, splitHostPort_writeEndpoint hvalid, (), hplain.token.nonempty, _, hport, ?_⟩
  simp only [hparse, bind_eq_some_iff, guard_eq_some']
  exact ⟨(), ⟨by simp [hplain.mapped], haddr⟩, rfl⟩

end

end

/-! ## The lines are read back -/

section

variable {scan : Scan}

/-- A line is neither empty nor a comment nor does it start or end with white space. -/
theorem Scan.line_of_trimmed {line} (htrim : Trimmed line) {c} (hhead : line.head? = some c)
    (hcomm : c ≠ '#') : scan.line line = scan.content line := by
  have hne : line ≠ [] := by
    rintro rfl
    cases hhead
  have hnot : line.head? ≠ some '#' := by
    rw [hhead]
    simpa using hcomm
  simp only [Scan.line, htrim.trimSpace]
  rw [if_neg (not_or.2 ⟨hne, hnot⟩)]

theorem hasUnsafeControl_of_printable {text} (h : ∀ c ∈ text, isPrintable c = true) :
    hasUnsafeControl text = false := by
  refine any_eq_false.2 fun c hc => ?_
  have hprin := h c hc
  simp only [isPrintable, Bool.and_eq_true, decide_eq_true_eq] at hprin
  simp
  exact ⟨fun hlt => absurd hprin.1 (Nat.not_le.2 hlt), by omega⟩

/-- What is needed of the name of a field. -/
theorem Field.name_chars (field : Field) :
    field.name ≠ [] ∧ (∀ c ∈ field.name, isToken c = true ∧ c ≠ '=') ∧
      (∀ c ∈ field.name.head?, c ≠ '#' ∧ c ≠ '[' ∧ c ≠ '=') := by
  have hall : field.name.all (fun c => isToken c && c != '=') = true := by
    cases field <;> decide
  have hhead : field.name.head?.all (fun c => c != '#' && c != '[' && c != '=') = true := by
    cases field <;> decide
  refine ⟨by cases field <;> decide, fun c hc => ?_, fun c hc => ?_⟩
  · simpa using List.all_eq_true.1 hall c hc
  · rw [mem_def.1 hc] at hhead
    simpa [and_assoc] using hhead

variable {field : Field} {current : Section} {value : List Char}

theorem Section.field_name (h : field ∈ current.fields) :
    current.field field.name = some field := by
  revert h
  cases current <;> cases field <;> decide

theorem writeField_eq (field : Field) (value : List Char) :
    writeField field value = (field.name ++ [' ']) ++ '=' :: ' ' :: value := by
  simp [writeField]

theorem printable_writeField (hvalue : Value value) :
    ∀ c ∈ writeField field value, isPrintable c = true := by
  intro c hc
  have hbetw : ∀ c ∈ " = ".toList, isPrintable c = true := List.all_eq_true.1 (by decide)
  simp only [writeField, mem_append] at hc
  rcases hc with (hc | hc) | hc
  · exact isPrintable_of_isToken (field.name_chars.2.1 c hc).1
  · exact hbetw c hc
  · exact hvalue.chars c hc

theorem Scan.line_writeField (hvalue : Value value) (hcur : scan.current = some current)
    (hfield : field ∈ current.fields) (hnew : scan.fields.lookup field = none) :
    scan.line (writeField field value) =
      .ok { scan with fields := (field, value) :: scan.fields } := by
  obtain ⟨hne, hname, hhead⟩ := field.name_chars
  have htoken : Token field.name := ⟨hne, fun c hc => (hname c hc).1⟩
  obtain ⟨c, rest, hcons⟩ := exists_cons_of_ne_nil hne
  obtain ⟨hcomm, hbrac, hequals⟩ := hhead c (by rw [hcons]; rfl)
  have hline : (writeField field value).head? = some c := by simp [writeField, hcons]
  have htrim : Trimmed (writeField field value) :=
    htoken.trimmed.append hvalue.trimmed hne hvalue.nonempty _
  -- the line is cut at the sign
  have hall : ∀ d ∈ field.name ++ [' '], decide (d ≠ '=') = true := by
    refine forall_mem_append.2 ⟨fun d hd => ?_, forall_mem_singleton.2 (by decide)⟩
    exact decide_eq_true (hname d hd).2
  have htake : (writeField field value).takeWhile (· ≠ '=') = field.name ++ [' '] := by
    rw [writeField_eq, takeWhile_append_of_pos hall, takeWhile_cons_of_neg (by simp), append_nil]
  have hdrop : ((writeField field value).dropWhile (· ≠ '=')).drop 1 = ' ' :: value := by
    rw [writeField_eq, dropWhile_append_of_pos hall, dropWhile_cons_of_neg (by simp),
      drop_one, tail_cons]
  have hsign : '=' ∈ writeField field value := by
    rw [writeField_eq]
    simp
  rw [Scan.line_of_trimmed htrim hline hcomm, Scan.content,
    hasUnsafeControl_of_printable (printable_writeField hvalue)]
  rw [hline, htake, hdrop, htoken.trimmed.trimSpace_append hne, trimSpace_space,
    hvalue.trimmed.trimSpace, if_neg (by simpa using hbrac), hcur]
  simp only [Section.field_name hfield, hnew, failIf]
  rw [if_neg (by decide), if_neg (by simpa [hsign] using hequals),
    if_neg (by simp [hvalue.nonempty])]
  rfl

end

/-! ## The profile is read back -/

section

variable {codec : Codec} {p : Profile} {resolved : ResolvedEndpoint}

theorem value_writeAllowedIPs (allowedV6 : Bool) : Value (writeAllowedIPs allowedV6) := by
  rw [writeAllowedIPs_eq]
  exact .commaSeparated (cons_ne_nil _ _) (token_routes allowedV6)

theorem Profile.Sound.printable_lines (h : p.Sound) (hvalid : resolved.valid = true) :
    ∀ line ∈ p.configLines resolved, ∀ c ∈ line, isPrintable c = true := by
  simp only [Profile.configLines, forall_mem_cons]
  exact ⟨List.all_eq_true.1 (by decide), printable_writeField h.privateKey.token.value,
    printable_writeField h.value_address, printable_writeField h.value_dns, forall_mem_nil _,
    List.all_eq_true.1 (by decide), printable_writeField h.publicKey.token.value,
    printable_writeField (value_writeAllowedIPs _),
    printable_writeField (token_writeEndpoint hvalid).value, forall_mem_nil _⟩

theorem foldlM_ok {α β : Type} {f : α → β → Except Error α} {a a' : α} {b : β} {l}
    (h : f a b = .ok a') : (b :: l).foldlM f a = l.foldlM f a' := by
  rw [foldlM_cons, h]
  rfl

/-- The fields that the reader has collected at the end. -/
def Profile.readFields (p : Profile) (resolved : ResolvedEndpoint) : List (Field × List Char) :=
  [(.endpoint, writeEndpoint resolved), (.allowedIPs, writeAllowedIPs p.allowedV6),
    (.publicKey, base64 p.publicKey), (.dns, commaSeparated (p.dnsServers.map Addr.text)),
    (.address, commaSeparated (p.addresses.map Prefix.text)), (.privateKey, base64 p.privateKey)]

namespace Profile.Sound

variable (h : p.Sound)

include h

theorem scan (hvalid : resolved.valid = true) :
    (p.configLines resolved).foldlM Scan.line .start =
      .ok ⟨some .peer, true, true, p.readFields resolved⟩ := by
  have hif : Scan.start.line "[Interface]".toList =
      .ok ⟨some .interface, true, false, []⟩ := rfl
  have hemp (scan : Scan) : scan.line [] = .ok scan := rfl
  have hpeer fields :
      Scan.line ⟨some .interface, true, false, fields⟩ "[Peer]".toList =
        .ok ⟨some .peer, true, true, fields⟩ := rfl
  rw [Profile.configLines, foldlM_ok hif,
    foldlM_ok (Scan.line_writeField h.privateKey.token.value rfl (by decide) rfl),
    foldlM_ok (Scan.line_writeField h.value_address rfl (by decide) rfl),
    foldlM_ok (Scan.line_writeField h.value_dns rfl (by decide) rfl),
    foldlM_ok (hemp _), foldlM_ok (hpeer _),
    foldlM_ok (Scan.line_writeField h.publicKey.token.value rfl (by decide) rfl),
    foldlM_ok (Scan.line_writeField (value_writeAllowedIPs _) rfl (by decide) rfl),
    foldlM_ok (Scan.line_writeField (token_writeEndpoint hvalid).value rfl (by decide) rfl)]
  rfl

theorem lines_config (hvalid : resolved.valid = true) :
    lines ((p.configLines resolved).flatMap (· ++ ['\n'])) = p.configLines resolved := by
  refine lines_flatMap fun line hline hnewl => ?_
  exact absurd (h.printable_lines hvalid line hline _ hnewl) (by decide)

/-- The text is read back as the profile, with another endpoint. -/
theorem parseText (hvalid : resolved.valid = true) (hrnd : RoundTrips codec p resolved) :
    parseText codec ((p.configLines resolved).flatMap (· ++ ['\n'])) =
      .ok { p with endpoint := ⟨[], resolved.address, resolved.port⟩ } := by
  have hprin := h.printable_lines hvalid
  have hzero : '\x00' ∉ (p.configLines resolved).flatMap (· ++ ['\n']) := by
    intro hzero
    obtain ⟨line, hline, hzero⟩ := mem_flatMap.1 hzero
    rcases mem_append.1 hzero with hzero | hzero
    · exact absurd (hprin line hline _ hzero) (by decide)
    · exact absurd hzero (by decide)
  have hv6 : ¬ (usesV6 p.addresses p.dnsServers = true ∧ ¬ p.allowedV6 = true) :=
    fun huses => huses.2 (h.v6 huses.1)
  simp only [Vpn.parseText, bind_eq_ok, failIf_eq_ok, ofOption_eq_ok, h.lines_config hvalid]
  refine ⟨(), hzero, (), (by decide : ¬ maximumProfileLines < 9), _, h.scan hvalid, (), by simp,
    _, rfl, _, h.privateKey.decodeKey hrnd.privateKey, _, rfl, _, h.parseAddresses hrnd, _, rfl,
    _, h.parseDNS hrnd, _, rfl, _, h.publicKey.decodeKey hrnd.publicKey, _, rfl, _,
    hrnd.parseAllowedIPs p.allowedV6, (), hv6, _, rfl, _,
    parseEndpoint_writeEndpoint hvalid hrnd.endpoint, rfl⟩

theorem length_config_le (hvalid : resolved.valid = true) :
    ((p.configLines resolved).flatMap (· ++ ['\n'])).length ≤ 4096 := by
  have haddrs : (commaSeparated (p.addresses.map Prefix.text)).length ≤ 88 * 8 := by
    refine (length_intercalate_le fun _ hpart => (h.text_address hpart).2).trans ?_
    rw [length_map]
    exact Nat.mul_le_mul_left 88 h.addresses.2.2.2.1
  have hdns : (commaSeparated (p.dnsServers.map Addr.text)).length ≤ 84 * 8 := by
    refine (length_intercalate_le fun _ hpart => (h.text_dns hpart).2).trans ?_
    rw [length_map]
    exact Nat.mul_le_mul_left 84 h.dnsServers.2.2.2
  have hall : (writeAllowedIPs p.allowedV6).length ≤ 15 := by
    cases p.allowedV6 <;> decide
  have hep := length_writeEndpoint_le hvalid
  have hfield field value :
      (writeField field value).length ≤ 13 + value.length := by
    have hname : field.name.length ≤ 10 := by cases field <;> decide
    simp only [writeField, length_append, String.length_toList]
    have hbetw : " = ".length = 3 := rfl
    omega
  have hpriv := hfield .privateKey (base64 p.privateKey)
  have haddr := hfield .address (commaSeparated (p.addresses.map Prefix.text))
  have hdns' := hfield .dns (commaSeparated (p.dnsServers.map Addr.text))
  have hpubl := hfield .publicKey (base64 p.publicKey)
  have hall' := hfield .allowedIPs (writeAllowedIPs p.allowedV6)
  have hep' := hfield .endpoint (writeEndpoint resolved)
  rw [length_base64, h.privateKey.1] at hpriv
  rw [length_base64, h.publicKey.1] at hpubl
  have hhead : "[Interface]".length = 11 ∧ "[Peer]".length = 6 := ⟨rfl, rfl⟩
  simp only [Profile.configLines, flatMap_cons, flatMap_nil, length_append,
    length_cons, length_nil, String.length_toList]
  omega

theorem byteLength_config (hvalid : resolved.valid = true) :
    byteLength ((p.configLines resolved).flatMap (· ++ ['\n'])) =
      ((p.configLines resolved).flatMap (· ++ ['\n'])).length := by
  refine IsASCII.byteLength fun c hc => ?_
  obtain ⟨line, hline, hc⟩ := mem_flatMap.1 hc
  rcases mem_append.1 hc with hc | hc
  · exact isASCII_of_isPrintable (h.printable_lines hvalid line hline) c hc
  · rw [mem_singleton.1 hc]
    decide

end Profile.Sound

/-- Reading the encoding of a text is reading the text. -/
theorem parse_utf8Encode {text} (hne : text ≠ []) (hlen : byteLength text ≤ maximumProfileBytes) :
    parse codec text.utf8Encode = parseText codec text := by
  have hemp : byteLength text ≠ 0 := by
    obtain ⟨c, rest, rfl⟩ := exists_cons_of_ne_nil hne
    have hpos := c.utf8Size_pos
    simp only [byteLength, map_cons, sum_cons]
    omega
  rw [parse, size_utf8Encode, List.utf8Decode?_utf8Encode]
  simp only [failIf]
  rw [if_neg (not_or.2 ⟨hemp, Nat.not_lt.2 hlen⟩)]
  rfl

/-- **Profile rewriting preserves meaning.** For every profile that is accepted, and every public
address with its port, the configuration for the guest is short enough, and is accepted as the
same profile with the address as its endpoint. -/
theorem rewritten_profile {raw : ByteArray} (hparse : parse codec raw = .ok p)
    (hvalid : resolved.valid = true) (hport : resolved.port = p.endpoint.port)
    (hround : RoundTrips codec p resolved) :
    ∃ text, withResolvedConfig (some p) resolved = .ok text ∧
      text.utf8Encode.size ≤ maximumProfileBytes ∧ (lines text).length ≤ maximumProfileLines ∧
      parse codec text.utf8Encode =
        .ok { p with endpoint := ⟨[], resolved.address, resolved.port⟩ } := by
  have hsound : p.Sound := by
    simp only [parse, bind_eq_ok] at hparse
    obtain ⟨-, -, text, -, hparse⟩ := hparse
    exact parseText_sound hparse
  have hlen : byteLength ((p.configLines resolved).flatMap (· ++ ['\n'])) ≤
      maximumProfileBytes := by
    rw [hsound.byteLength_config hvalid]
    exact (hsound.length_config_le hvalid).trans (by decide)
  refine ⟨(p.configLines resolved).flatMap (· ++ ['\n']), ?_, ?_, ?_, ?_⟩
  · simp only [withResolvedConfig, bind_eq_ok, failIf_eq_ok]
    exact ⟨(), by simp [hvalid], p, rfl, (), by simp [hport], (), Nat.not_lt.2 hlen, rfl⟩
  · rwa [size_utf8Encode]
  · rw [hsound.lines_config hvalid]
    exact (by decide : 9 ≤ maximumProfileLines)
  · rw [parse_utf8Encode (by simp [Profile.configLines]) hlen]
    exact hsound.parseText hvalid hround

end

/-! ## A sample profile -/

/-- Reads back what is printed of the given values. -/
def readBack {α : Type} (print : α → List Char) (values : List α) (text : List Char) : Option α :=
  values.find? (print · = text)

def sampleResolved : ResolvedEndpoint := ⟨.v4 0xb99f9d01, 51820⟩

def sampleProfile : Profile where
  privateKey := List.replicate 32 1
  addresses := [prefixFrom (.v4 0x0a020002) 32]
  dnsServers := [.v4 0x0a020001]
  publicKey := List.replicate 32 2
  allowedV6 := true
  endpoint := ⟨"node.proton.example.".toList, .zero, 51820⟩

def sampleCodec : Codec where
  parseAddr := readBack Addr.text [.v4 0x0a020001, .v4 0xb99f9d01]
  parsePrefix := readBack Prefix.text
    [prefixFrom (.v4 0x0a020002) 32, prefixFrom (.v4 0) 0, prefixFrom (.v6 0 "") 0]
  decode := readBack base64 [List.replicate 32 1, List.replicate 32 2]
  lower := Char.toLower

def sampleText : List Char :=
  "# Proton\n[Interface]\nPrivateKey=".toList ++ base64 sampleProfile.privateKey ++
    "\n  Address = 10.2.0.2/32\nDNS = 10.2.0.1\n\n[Peer]\nPublicKey = ".toList ++
    base64 sampleProfile.publicKey ++
    "\nAllowedIPs = 0.0.0.0/0,::/0\nEndpoint = Node.Proton.example:51820".toList

theorem parse_sampleText : parse sampleCodec sampleText.utf8Encode = .ok sampleProfile := by
  rw [parse_utf8Encode (by decide +kernel) (by decide +kernel)]
  decide +kernel

theorem rewritten_profile_sample :
    parse sampleCodec sampleText.utf8Encode = .ok sampleProfile ∧
    ∃ text, withResolvedConfig (some sampleProfile) sampleResolved = .ok text ∧
      text.utf8Encode.size ≤ maximumProfileBytes ∧ (lines text).length ≤ maximumProfileLines ∧
      parse sampleCodec text.utf8Encode =
        .ok { sampleProfile with endpoint := ⟨[], .v4 0xb99f9d01, 51820⟩ } := by
  refine ⟨parse_sampleText, rewritten_profile parse_sampleText (by decide +kernel) rfl ?_⟩
  exact ⟨by decide +kernel, by decide +kernel, by decide +kernel, by decide +kernel,
    by decide +kernel, by decide +kernel, by decide +kernel⟩

end PrivateVm.Vpn
