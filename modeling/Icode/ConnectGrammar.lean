import Icode.ConnectRequest

/-!
# The grammar of a CONNECT head

The heads that the parser accepts, written out as byte strings: `ConnectHead` is a request line of
a DNS name, with no field under HTTP/1.0 and the one `Host` field under HTTP/1.1. `DnsName` says
which names these are.

`parse_iff_connectHead` is both directions for all byte strings. A text is put together again from
its lines (`intercalate_splitLines`), a field from its name and its value, and a value from the
blanks around it.
-/

namespace Icode

open Py SandboxPolicy

/-! ## DNS names -/

/-- A letter or a digit. -/
def IsAlnum (b : UInt8) : Prop :=
  48 ≤ b.toNat ∧ b.toNat ≤ 57 ∨ 65 ≤ b.toNat ∧ b.toNat ≤ 90 ∨ 97 ≤ b.toNat ∧ b.toNat ≤ 122

/-- One label of a name: letters and digits, with hyphens between them. -/
structure DnsLabel (label : Bytes) : Prop where
  length : label.length ≤ 63
  bytes : ∀ b ∈ label, IsAlnum b ∨ b = 0x2D
  first : ∃ b ∈ label.head?, IsAlnum b
  last : ∃ b ∈ label.getLast?, IsAlnum b

/-- A digit. -/
def IsDigit (b : UInt8) : Prop :=
  48 ≤ b.toNat ∧ b.toNat ≤ 57

/-- A digit of a number to the base 16. -/
def IsHexDigit (b : UInt8) : Prop :=
  IsDigit b ∨ 65 ≤ b.toNat ∧ b.toNat ≤ 70 ∨ 97 ≤ b.toNat ∧ b.toNat ≤ 102

/-- A label that old resolvers read as a number. -/
def NumberLabel (label : Bytes) : Prop :=
  label ≠ [] ∧ (∀ b ∈ label, IsDigit b) ∨
    ∃ x digits, label = 0x30 :: x :: digits ∧ (x = 0x78 ∨ x = 0x58) ∧ digits ≠ [] ∧
      ∀ b ∈ digits, IsHexDigit b

/-- A DNS name: two labels or more, and no IPv4 address in any spelling. -/
structure DnsName (name : Bytes) : Prop where
  length : name.length ≤ 253
  labels : 2 ≤ (name.splitOn 0x2E).length
  label : ∀ label ∈ name.splitOn 0x2E, DnsLabel label
  notNumbers : (name.splitOn 0x2E).length ≤ 4 → ∃ label ∈ name.splitOn 0x2E, ¬NumberLabel label

/-- A byte of a name in lower case, as a character. -/
def lowerCode (b : UInt8) : CodePoint :=
  lowerAscii (ofOrd b.toNat)

/-- The name in lower case, as a text. -/
def lowerName (name : Bytes) : PyStr :=
  name.map lowerCode

theorem ord_lowerCode {b : UInt8} (h : b.toNat < 128) :
    (lowerCode b).ord = if 65 ≤ b.toNat ∧ b.toNat ≤ 90 then b.toNat + 32 else b.toNat := by
  have hord : (ofOrd b.toNat).ord = b.toNat := ord_ofOrd (Or.inl (by omega))
  unfold lowerCode lowerAscii
  rw [hord]
  split_ifs with hupper
  · exact ord_ofOrd (Or.inl (by omega))
  · exact hord

theorem lowerCode_eq_iff {b : UInt8} (h : b.toNat < 128) {c : CodePoint} :
    lowerCode b = c ↔ (if 65 ≤ b.toNat ∧ b.toNat ≤ 90 then b.toNat + 32 else b.toNat) = c.ord := by
  rw [← ord_lowerCode h]
  exact CodePoint.ord_injective.eq_iff.symm

theorem lowerCode_eq_dot {b : UInt8} (h : b.toNat < 128) :
    lowerCode b = .scalar '.' ↔ b = 0x2E := by
  rw [lowerCode_eq_iff h, ← UInt8.toNat_inj]
  change _ = 46 ↔ b.toNat = 46
  split_ifs <;> omega

theorem splitDots_lowerName {name : Bytes} (h : ∀ b ∈ name, b.toNat < 128) :
    splitDots (lowerName name) = (name.splitOn 0x2E).map lowerName := by
  induction name with
  | nil => rfl
  | cons b name ih =>
    have hb := h b (by simp)
    have hrest := ih fun c hc => h c (by simp [hc])
    obtain ⟨label, labels, hsplit⟩ :=
      List.exists_cons_of_ne_nil (List.splitOn_ne_nil (0x2E : UInt8) name)
    rw [hsplit, List.map_cons] at hrest
    rw [List.splitOn_cons_eq_if_modifyHead, hsplit, lowerName, List.map_cons, splitDots,
      ← lowerName, hrest]
    by_cases hdot : b = 0x2E
    · have hcode := (lowerCode_eq_dot hb).mpr hdot
      simp [hdot, lowerName, hdot ▸ hcode]
    · simp [hdot, lowerName, (lowerCode_eq_dot hb).not.mpr hdot]

theorem isLabelChar_lowerCode {b : UInt8} (h : b.toNat < 128) :
    isLabelChar (lowerCode b) = true ↔ IsAlnum b := by
  simp only [isLabelChar, ord_lowerCode h, Bool.or_eq_true, Bool.and_eq_true, decide_eq_true_eq,
    IsAlnum]
  split_ifs <;> omega

theorem isDnsLabel_lowerName {label : Bytes} (h : ∀ b ∈ label, b.toNat < 128) :
    isDnsLabel (lowerName label) = true ↔ DnsLabel label := by
  have hhyphen : ∀ b ∈ label, lowerCode b = .scalar '-' ↔ b = 0x2D := by
    intro b hb
    rw [lowerCode_eq_iff (h b hb), ← UInt8.toNat_inj]
    change _ = 45 ↔ b.toNat = 45
    split_ifs <;> omega
  have hbytes : (∀ b ∈ label, isLabelChar (lowerCode b) = true ∨ lowerCode b = .scalar '-') ↔
      ∀ b ∈ label, IsAlnum b ∨ b = 0x2D :=
    forall₂_congr fun b hb => by rw [isLabelChar_lowerCode (h b hb), hhyphen b hb]
  have hfirst : (∃ b, label.head? = some b ∧ isLabelChar (lowerCode b) = true) ↔
      ∃ b, label.head? = some b ∧ IsAlnum b :=
    exists_congr fun b => and_congr_right fun hb => by
      rw [isLabelChar_lowerCode (h b (List.mem_of_mem_head? hb))]
  have hlast : (∃ b, label.getLast? = some b ∧ isLabelChar (lowerCode b) = true) ↔
      ∃ b, label.getLast? = some b ∧ IsAlnum b :=
    exists_congr fun b => and_congr_right fun hb => by
      rw [isLabelChar_lowerCode (h b (List.mem_of_mem_getLast? hb))]
  have hne : (∃ b, label.head? = some b ∧ IsAlnum b) → label ≠ [] := by
    rintro ⟨b, hb, -⟩ rfl
    simp at hb
  simp only [isDnsLabel, lowerName, Bool.and_eq_true, Bool.not_eq_true', List.isEmpty_eq_false_iff,
    List.length_map, decide_eq_true_eq, List.all_map, List.all_eq_true, Function.comp_apply,
    Bool.or_eq_true, beq_iff_eq, List.head?_map, List.getLast?_map, Option.any_map,
    Option.any_eq_true, hbytes, hfirst, hlast, ne_eq, List.map_eq_nil_iff]
  constructor
  · rintro ⟨⟨⟨-, hlen⟩, hb⟩, hf, hl⟩
    exact ⟨hlen, hb, hf, hl⟩
  · rintro ⟨hlen, hb, hf, hl⟩
    exact ⟨⟨⟨hne hf, hlen⟩, hb⟩, hf, hl⟩

theorem isLegacyIpv4Part_lowerName {label : Bytes} (h : ∀ b ∈ label, b.toNat < 128) :
    isLegacyIpv4Part (lowerName label) = true ↔ NumberLabel label := by
  have hdigit : ∀ b ∈ label, isDecimalDigit (lowerCode b) = true ↔ IsDigit b := by
    intro b hb
    simp only [isDecimalDigit, ord_lowerCode (h b hb), Bool.and_eq_true, decide_eq_true_eq, IsDigit]
    split_ifs <;> omega
  have hdecimal : (∀ b ∈ label, isDecimalDigit (lowerCode b) = true) ↔ ∀ b ∈ label, IsDigit b :=
    forall₂_congr hdigit
  unfold isLegacyIpv4Part NumberLabel
  rw [Bool.or_eq_true]
  refine or_congr (by simp [lowerName, hdecimal]) ?_
  match label, h, hdigit with
  | [], _, _ => simp [lowerName]
  | [z], _, _ => simp [lowerName]
  | z :: x :: digits, h, hdigit =>
    have hz : lowerCode z = .scalar '0' ↔ z = 0x30 := by
      rw [lowerCode_eq_iff (h z (by simp)), ← UInt8.toNat_inj]
      change _ = 48 ↔ z.toNat = 48
      split_ifs <;> omega
    have hx : lowerCode x = .scalar 'x' ∨ lowerCode x = .scalar 'X' ↔ x = 0x78 ∨ x = 0x58 := by
      rw [lowerCode_eq_iff (h x (by simp)), lowerCode_eq_iff (h x (by simp)), ← UInt8.toNat_inj,
        ← UInt8.toNat_inj]
      change _ = 120 ∨ _ = 88 ↔ x.toNat = 120 ∨ x.toNat = 88
      split_ifs <;> omega
    have hhex : (∀ b ∈ digits, (isDecimalDigit (lowerCode b) = true ∨
        97 ≤ (lowerCode b).ord ∧ (lowerCode b).ord ≤ 102) ∨
        65 ≤ (lowerCode b).ord ∧ (lowerCode b).ord ≤ 70) ↔ ∀ b ∈ digits, IsHexDigit b := by
      refine forall₂_congr fun b hb => ?_
      rw [hdigit b (by simp [hb]), ord_lowerCode (h b (by simp [hb])), IsHexDigit, IsDigit]
      split_ifs <;> omega
    simp only [lowerName, List.map_cons, Bool.and_eq_true, Bool.or_eq_true, beq_iff_eq,
      Bool.not_eq_true', List.isEmpty_eq_false_iff, ne_eq, List.map_eq_nil_iff, List.all_map,
      List.all_eq_true, Function.comp_apply, decide_eq_true_eq, hz, hx, hhex]
    constructor
    · rintro ⟨⟨⟨hz, hx⟩, hne⟩, hall⟩
      exact ⟨x, digits, by rw [hz], hx, hne, hall⟩
    · rintro ⟨x', digits', heq, hx, hne, hall⟩
      obtain ⟨hzero, heq⟩ := List.cons.inj heq
      obtain ⟨rfl, rfl⟩ := List.cons.inj heq
      exact ⟨⟨⟨hzero, hx⟩, hne⟩, hall⟩

/-- A byte of a text is a separator or in a part. -/
theorem mem_splitOn (sep : UInt8) {b : UInt8} {data : Bytes} (h : b ∈ data) :
    b = sep ∨ ∃ part ∈ data.splitOn sep, b ∈ part := by
  induction data with
  | nil => cases h
  | cons c data ih =>
    obtain ⟨part, parts, hsplit⟩ := List.exists_cons_of_ne_nil (List.splitOn_ne_nil sep data)
    rw [hsplit] at ih
    rw [List.splitOn_cons_eq_if_modifyHead, hsplit]
    by_cases hsep : c = sep
    · rcases List.mem_cons.mp h with rfl | h
      · exact Or.inl hsep
      · refine (ih h).imp_right fun ⟨p, hp, hb⟩ => ⟨p, ?_, hb⟩
        rw [beq_iff_eq.mpr hsep, if_pos rfl]
        exact List.mem_cons_of_mem _ hp
    · rw [if_neg (by simpa using hsep), List.modifyHead_cons]
      rcases List.mem_cons.mp h with rfl | h
      · exact Or.inr ⟨b :: part, by simp, by simp⟩
      · refine (ih h).imp_right fun ⟨p, hp, hb⟩ => ?_
        rcases List.mem_cons.mp hp with rfl | hp
        · exact ⟨c :: p, by simp, by simp [hb]⟩
        · exact ⟨p, by simp [hp], hb⟩

/-- The parts of a text are made of its bytes. -/
theorem mem_of_mem_splitOn {sep b : UInt8} {data part : Bytes} (hpart : part ∈ data.splitOn sep)
    (h : b ∈ part) : b ∈ data := by
  induction data generalizing part with
  | nil =>
    rw [List.splitOn_nil, List.mem_singleton] at hpart
    exact hpart ▸ h
  | cons c data ih =>
    obtain ⟨first, parts, hsplit⟩ := List.exists_cons_of_ne_nil (List.splitOn_ne_nil sep data)
    rw [hsplit] at ih
    rw [List.splitOn_cons_eq_if_modifyHead, hsplit] at hpart
    split_ifs at hpart with hsep
    · rcases List.mem_cons.mp hpart with rfl | hpart
      · cases h
      · exact List.mem_cons_of_mem _ (ih hpart h)
    · rw [List.modifyHead_cons] at hpart
      rcases List.mem_cons.mp hpart with rfl | hpart
      · rcases List.mem_cons.mp h with rfl | h
        · exact List.mem_cons_self
        · exact List.mem_cons_of_mem _ (ih List.mem_cons_self h)
      · exact List.mem_cons_of_mem _ (ih (List.mem_cons_of_mem _ hpart) h)

theorem DnsName.ascii {name : Bytes} (h : DnsName name) : ∀ b ∈ name, b.toNat < 128 := by
  intro b hb
  rcases mem_splitOn 0x2E hb with rfl | ⟨label, hlabel, hmem⟩
  · decide
  · rcases (h.label label hlabel).bytes b hmem with halnum | rfl
    · unfold IsAlnum at halnum
      omega
    · decide

theorem isExactDnsHostname_lowerName {name : Bytes} (h : ∀ b ∈ name, b.toNat < 128) :
    isExactDnsHostname' (lowerName name) = true ↔ DnsName name := by
  have hlt : ∀ b ∈ name, (lowerCode b).ord < 128 := by
    intro b hb
    have hb' := h b hb
    rw [ord_lowerCode hb']
    split_ifs <;> omega
  have hpart : ∀ part ∈ name.splitOn 0x2E, ∀ b ∈ part, b.toNat < 128 :=
    fun part hpart b hb => h b (mem_of_mem_splitOn hpart hb)
  have hlabels : (∀ part ∈ name.splitOn 0x2E, isDnsLabel (lowerName part) = true) ↔
      ∀ part ∈ name.splitOn 0x2E, DnsLabel part :=
    forall₂_congr fun part hp => isDnsLabel_lowerName (hpart part hp)
  have hnumbers : (name.splitOn 0x2E).all (isLegacyIpv4Part ∘ lowerName) = false ↔
      ∃ part ∈ name.splitOn 0x2E, ¬NumberLabel part := by
    rw [List.all_eq_false]
    exact exists_congr fun part => and_congr_right fun hp =>
      (isLegacyIpv4Part_lowerName (hpart part hp)).not
  simp only [isExactDnsHostname', isLegacyIpv4Text, splitDots_lowerName h, Bool.and_eq_true,
    Bool.not_eq_true', List.isEmpty_eq_false_iff, decide_eq_true_eq, List.length_map,
    List.all_map, List.all_eq_true, Function.comp_apply, Bool.and_eq_false_iff,
    decide_eq_false_iff_not, hlabels, hnumbers]
  constructor
  · rintro ⟨⟨⟨⟨⟨-, hlen⟩, -⟩, hnot⟩, htwo⟩, hall⟩
    exact ⟨by simpa [lowerName] using hlen, htwo, hall, fun hfour => hnot.resolve_left (· hfour)⟩
  · intro hname
    have hne : lowerName name ≠ [] := by
      intro hnil
      have htwo := hname.labels
      rw [List.map_eq_nil_iff.mp hnil] at htwo
      simp at htwo
    refine ⟨⟨⟨⟨⟨hne, by simpa [lowerName] using hname.length⟩, ?_⟩, ?_⟩, hname.labels⟩,
      hname.label⟩
    · simpa [lowerName] using hlt
    · by_cases hfour : (name.splitOn 0x2E).length ≤ 4
      · exact Or.inr (hname.notNumbers hfour)
      · exact Or.inl hfour

/-- `canonicalHostname` accepts the DNS names, and returns them in lower case. -/
theorem canonicalHostname_eq_some {name : Bytes} {host : PyStr} :
    canonicalHostname name = some host ↔ DnsName name ∧ host = lowerName name := by
  have hmap : (name.map fun b => ofOrd b.toNat).map lowerAscii = lowerName name := by
    rw [List.map_map]
    rfl
  unfold canonicalHostname
  cases hd : decodeAscii name with
  | none =>
    simp only [reduceCtorEq, false_iff]
    rintro ⟨hname, -⟩
    have hall : (name.all fun b => b < 0x80) = true := by
      rw [List.all_eq_true]
      intro b hb
      simpa [UInt8.lt_iff_toNat_lt] using hname.ascii b hb
    simp [decodeAscii, hall] at hd
  | some text =>
    obtain ⟨hlt, rfl⟩ := decodeAscii_eq_some hd
    have hord : ((name.map fun b => ofOrd b.toNat).all fun c => c.ord < 128) = true := by
      rw [List.all_map, List.all_eq_true]
      intro b hb
      have hb' := hlt b hb
      simpa [ord_ofOrd (n := b.toNat) (Or.inl (by omega))] using hb'
    dsimp only
    rw [isExactDnsHostname, hord, Bool.true_and, hmap]
    by_cases hexact : isExactDnsHostname' (lowerName name) = true
    · simp [hexact, (isExactDnsHostname_lowerName hlt).mp hexact, eq_comm]
    · simp [hexact, (isExactDnsHostname_lowerName hlt).not.mp hexact]

/-- Two spellings of a name, up to case. -/
theorem lowerBytes_eq_iff {a b : Bytes} (hb : ∀ x ∈ b, x.toNat < 128) :
    lowerBytes a = lowerBytes b ↔ (∀ x ∈ a, x.toNat < 128) ∧ lowerName a = lowerName b := by
  have hlower : ∀ x y : UInt8, y.toNat < 128 →
      ((if 65 ≤ x ∧ x ≤ 90 then x + 32 else x) = (if 65 ≤ y ∧ y ≤ 90 then y + 32 else y) ↔
        x.toNat < 128 ∧ lowerCode x = lowerCode y) := by
    intro x y hy
    have hnat : ∀ z : UInt8, (if 65 ≤ z ∧ z ≤ 90 then z + 32 else z).toNat =
        if 65 ≤ z.toNat ∧ z.toNat ≤ 90 then z.toNat + 32 else z.toNat := by
      intro z
      simp only [UInt8.le_iff_toNat_le]
      change (if 65 ≤ z.toNat ∧ z.toNat ≤ 90 then z + 32 else z).toNat = _
      split_ifs with hz
      · rw [UInt8.toNat_add]
        change (z.toNat + 32) % 256 = _
        omega
      · rfl
    rw [← UInt8.toNat_inj, hnat, hnat]
    constructor
    · intro h
      have hx : x.toNat < 128 := by
        split_ifs at h <;> omega
      refine ⟨hx, ?_⟩
      rw [lowerCode_eq_iff hx, ord_lowerCode hy]
      exact h
    · rintro ⟨hx, h⟩
      rw [lowerCode_eq_iff hx, ord_lowerCode hy] at h
      exact h
  induction b generalizing a with
  | nil => cases a <;> simp [lowerBytes, lowerName]
  | cons y b ih =>
    cases a with
    | nil => simp [lowerBytes, lowerName]
    | cons x a =>
      have hrest : lowerBytes a = lowerBytes b ↔
          (∀ z ∈ a, z.toNat < 128) ∧ lowerName a = lowerName b :=
        ih fun z hz => hb z (List.mem_cons_of_mem _ hz)
      rw [lowerBytes, lowerBytes, List.map_cons, List.map_cons, List.cons.injEq, ← lowerBytes,
        ← lowerBytes, hlower x y (hb y List.mem_cons_self), hrest, List.forall_mem_cons]
      simp only [lowerName, List.map_cons, List.cons.injEq]
      exact and_and_and_comm

/-- A name in another case is the same name. -/
theorem DnsName.of_lowerBytes {a b : Bytes} (hb : DnsName b) (h : lowerBytes a = lowerBytes b) :
    DnsName a ∧ lowerName a = lowerName b := by
  obtain ⟨ha, hname⟩ := (lowerBytes_eq_iff hb.ascii).mp h
  refine ⟨?_, hname⟩
  rw [← isExactDnsHostname_lowerName ha, hname, isExactDnsHostname_lowerName hb.ascii]
  exact hb

/-! ## Heads -/

/-- Spaces and tabs. -/
def IsBlanks (data : Bytes) : Prop :=
  ∀ b ∈ data, b = 0x20 ∨ b = 0x09

/-- The request line of a name. -/
def requestLine (name version : Bytes) : Bytes :=
  bytesLit "CONNECT" ++ 0x20 :: (name ++ 0x3A :: httpsPortText) ++ 0x20 :: version

/-- A `Host` field that carries the name in any case, with its port or without. -/
def HostField (name line : Bytes) : Prop :=
  ∃ field before host port after, line = field ++ 0x3A :: (before ++ (host ++ port) ++ after) ∧
    lowerBytes field = bytesLit "host" ∧ IsBlanks before ∧ IsBlanks after ∧
    lowerBytes host = lowerBytes name ∧ (port = [] ∨ port = 0x3A :: httpsPortText)

/-- A complete head, and the target it asks for. -/
inductive ConnectHead : Bytes → HttpsConnectTarget → Prop
  | http10 {name : Bytes} (hname : DnsName name) :
      ConnectHead (requestLine name (bytesLit "HTTP/1.0") ++ headerTerminator)
        ⟨lowerName name, httpsPort⟩
  | http11 {name line : Bytes} (hname : DnsName name) (hline : HostField name line) :
      ConnectHead
        (requestLine name (bytesLit "HTTP/1.1") ++ 0x0D :: 0x0A :: line ++ headerTerminator)
        ⟨lowerName name, httpsPort⟩

/-- A text is its lines, with a line break between them. -/
theorem intercalate_splitLines (data : Bytes) :
    List.intercalate [0x0D, 0x0A] (splitLines data) = data := by
  fun_induction splitLines data with
  | case1 => rfl
  | case2 rest ih =>
    obtain ⟨line, lines, hlines⟩ := List.exists_cons_of_ne_nil (splitLines_ne_nil rest)
    rw [hlines] at ih ⊢
    rw [List.intercalate_cons_cons, ih]
    rfl
  | case3 b rest hb hnil => exact absurd hnil (splitLines_ne_nil rest)
  | case4 b rest hb line lines hlines ih =>
    rw [hlines] at ih
    cases lines with
    | nil => simpa [List.intercalate_singleton] using ih
    | cons next lines =>
      rw [List.intercalate_cons_cons] at ih ⊢
      rw [← ih]
      rfl

/-- A text is what its `strip` left, between blanks. -/
theorem exists_blanks_stripBlank (data : Bytes) :
    ∃ before after, data = before ++ stripBlank data ++ after ∧ IsBlanks before ∧
      IsBlanks after := by
  have hblank : ∀ l : Bytes, IsBlanks (l.takeWhile fun b => b == 0x20 || b == 0x09) := by
    intro l b hb
    simpa using List.mem_takeWhile_imp hb
  have hreverse := hblank (data.dropWhile fun b => b == 0x20 || b == 0x09).reverse
  refine ⟨_, _, ?_, hblank data, fun b hb => hreverse b (List.mem_reverse.mp hb)⟩
  unfold stripBlank
  dsimp only
  rw [List.append_assoc, ← List.reverse_append, List.takeWhile_append_dropWhile,
    List.reverse_reverse, List.takeWhile_append_dropWhile]

/-- `strip` takes off the blanks around a text that begins and ends with another byte. -/
theorem stripBlank_append {before data after : Bytes} (hb : IsBlanks before) (ha : IsBlanks after)
    (hhead : ∀ b ∈ data.head?, b ≠ 0x20 ∧ b ≠ 0x09)
    (hlast : ∀ b ∈ data.getLast?, b ≠ 0x20 ∧ b ≠ 0x09) (hne : data ≠ []) :
    stripBlank (before ++ data ++ after) = data := by
  have hdrop : ∀ l rest : Bytes, IsBlanks l → (∀ b ∈ rest.head?, b ≠ 0x20 ∧ b ≠ 0x09) →
      (l ++ rest).dropWhile (fun b => b == 0x20 || b == 0x09) = rest := by
    intro l rest hl hrest
    rw [List.dropWhile_append_of_pos (by simpa [IsBlanks] using hl)]
    cases rest with
    | nil => rfl
    | cons b rest => exact List.dropWhile_cons_of_neg (by simpa using hrest b rfl)
  unfold stripBlank
  dsimp only
  rw [List.append_assoc, hdrop before (data ++ after) hb, List.reverse_append,
    hdrop after.reverse data.reverse, List.reverse_reverse]
  · exact fun b hmem => ha b (List.mem_reverse.mp hmem)
  · rwa [List.head?_reverse]
  · rwa [List.head?_append_of_ne_nil _ hne]

/-! ## Fields -/

theorem letter_of_lowerBytes {b c : UInt8} (hc : 97 ≤ c.toNat ∧ c.toNat ≤ 122)
    (h : (if 65 ≤ b ∧ b ≤ 90 then b + 32 else b) = c) : IsAlnum b := by
  subst h
  by_cases hb : 65 ≤ b ∧ b ≤ 90
  · simp only [UInt8.le_iff_toNat_le] at hb
    exact Or.inr (Or.inl hb)
  · rw [if_neg hb] at hc
    exact Or.inr (Or.inr hc)

/-- The name of a `Host` field is four letters. -/
theorem alnum_of_lowerBytes {field : Bytes} (h : lowerBytes field = bytesLit "host") :
    field ≠ [] ∧ ∀ b ∈ field, IsAlnum b := by
  have hhost : bytesLit "host" = [0x68, 0x6F, 0x73, 0x74] := by decide
  rw [hhost] at h
  constructor
  · rintro rfl
    cases h
  · intro b hb
    have hmem : (if 65 ≤ b ∧ b ≤ 90 then b + 32 else b) ∈ lowerBytes field :=
      List.mem_map_of_mem hb
    rw [h] at hmem
    have hletter : ∀ c ∈ ([0x68, 0x6F, 0x73, 0x74] : Bytes), 97 ≤ c.toNat ∧ c.toNat ≤ 122 := by
      simp
    exact letter_of_lowerBytes (hletter _ hmem) rfl

theorem isHeaderNameByte_of_alnum {b : UInt8} (h : IsAlnum b) : isHeaderNameByte b = true := by
  simp only [isHeaderNameByte, Bool.or_eq_true, Bool.and_eq_true, decide_eq_true_eq,
    UInt8.le_iff_toNat_le]
  unfold IsAlnum at h
  change ((_ ∨ 48 ≤ b.toNat ∧ b.toNat ≤ 57) ∨ 65 ≤ b.toNat ∧ b.toNat ≤ 90) ∨
    97 ≤ b.toNat ∧ b.toNat ≤ 122
  tauto

/-- A line is what is before its first colon, and what is after it. -/
theorem eq_takeWhile_append {line : Bytes} (h : (0x3A : UInt8) ∈ line) :
    line = line.takeWhile (· != 0x3A) ++ 0x3A :: (line.dropWhile (· != 0x3A)).drop 1 := by
  induction line with
  | nil => cases h
  | cons b line ih =>
    by_cases hb : b = 0x3A
    · simp [hb]
    · have hne : (b != 0x3A) = true := by simpa using hb
      simp only [List.takeWhile_cons, List.dropWhile_cons, hne, if_true, List.cons_append]
      rw [← ih ((List.mem_cons.mp h).resolve_left (Ne.symm hb))]

/-- An accepted field is the `Host` field of the name. -/
theorem hostField_of_checkField {name line : Bytes} {n m : ℕ} (hname : DnsName name)
    (h : checkField (lowerName name) n line = .ok m) : HostField name line := by
  simp only [checkField, bind_eq_ok, require_eq_ok, exists_const, Bool.and_eq_true, beq_iff_eq] at h
  obtain ⟨-, ⟨hcolon, -⟩, -, -, hfield, ⟨-, hvalue⟩, -⟩ := h
  have hsplit := eq_takeWhile_append (List.contains_iff_mem.mp hcolon)
  obtain ⟨before, after, heq, hbefore, hafter⟩ :=
    exists_blanks_stripBlank ((line.dropWhile (· != 0x3A)).drop 1)
  have hspelling : ∀ host, canonicalHostname host = some (lowerName name) →
      lowerBytes host = lowerBytes name := by
    intro host hhost
    obtain ⟨hhost, hlower⟩ := canonicalHostname_eq_some.mp hhost
    exact (lowerBytes_eq_iff hname.ascii).mpr ⟨hhost.ascii, hlower.symm⟩
  unfold parseHostField at hvalue
  split at hvalue
  · next host hparts =>
    obtain rfl := eq_of_splitOn_eq_singleton hparts
    refine ⟨_, before, _, [], after, ?_, hfield, hbefore, hafter, hspelling _ hvalue, Or.inl rfl⟩
    rw [List.append_nil, ← heq]
    exact hsplit
  · next host port hparts =>
    split_ifs at hvalue with hport
    have hjoin : List.intercalate [0x3A]
        ((stripBlank ((line.dropWhile (· != 0x3A)).drop 1)).splitOn 0x3A) = _ :=
      List.intercalate_splitOn _
    rw [hparts, hport, List.intercalate_cons_cons, List.intercalate_singleton] at hjoin
    refine ⟨_, before, host, 0x3A :: httpsPortText, after, ?_, hfield, hbefore, hafter,
      hspelling _ hvalue, Or.inr rfl⟩
    rw [← hjoin, List.append_assoc host, List.singleton_append] at heq
    rw [← heq]
    exact hsplit
  · cases hvalue

/-- The bytes of a DNS name are between the hyphen and `z`. -/
theorem DnsName.plain {name : Bytes} (h : DnsName name) : ∀ b ∈ name, PlainByte b := by
  intro b hb
  rcases mem_splitOn 0x2E hb with rfl | ⟨label, hlabel, hmem⟩
  · decide
  · rcases (h.label label hlabel).bytes b hmem with halnum | rfl
    · unfold IsAlnum at halnum
      unfold PlainByte
      omega
    · decide

theorem plainByte_of_alnum {b : UInt8} (h : IsAlnum b) : PlainByte b := by
  unfold IsAlnum at h
  unfold PlainByte
  omega

/-- The bytes of a `Host` field are tabs and printable bytes. -/
theorem HostField.bytes {name line : Bytes} (h : HostField name line) (hname : DnsName name) :
    ∀ b ∈ line, b = 0x09 ∨ 32 ≤ b.toNat ∧ b.toNat ≤ 122 := by
  obtain ⟨field, before, host, port, after, rfl, hfield, hbefore, hafter, hhost, hport⟩ := h
  intro b hb
  have hblanks : ∀ l, IsBlanks l → b ∈ l → b = 0x09 ∨ 32 ≤ b.toNat ∧ b.toNat ≤ 122 := by
    intro l hl hb
    rcases hl b hb with rfl | rfl <;> decide
  have hplain : PlainByte b → b = 0x09 ∨ 32 ≤ b.toNat ∧ b.toNat ≤ 122 := by
    rintro ⟨hlow, hhigh, -⟩
    exact Or.inr ⟨by omega, hhigh⟩
  simp only [List.mem_append, List.mem_cons] at hb
  rcases hb with hb | rfl | (hb | hb | hb) | hb
  · exact hplain (plainByte_of_alnum ((alnum_of_lowerBytes hfield).2 b hb))
  · decide
  · exact hblanks before hbefore hb
  · exact hplain ((hname.of_lowerBytes hhost).1.plain b hb)
  · rcases hport with rfl | rfl
    · cases hb
    · rw [httpsPortText_eq] at hb
      have hall : ∀ c ∈ ([0x3A, 0x34, 0x34, 0x33] : Bytes), 32 ≤ c.toNat ∧ c.toNat ≤ 122 := by
        simp
      exact Or.inr (hall b hb)
  · exact hblanks after hafter hb

/-- The `Host` field of a name is accepted. -/
theorem checkField_of_hostField {name line : Bytes} (hname : DnsName name)
    (h : HostField name line) : checkField (lowerName name) 0 line = .ok 1 := by
  have hbytes := h.bytes hname
  obtain ⟨field, before, host, port, after, rfl, hfield, hbefore, hafter, hhost, hport⟩ := h
  obtain ⟨hdns, hlower⟩ := hname.of_lowerBytes hhost
  obtain ⟨hne, halnum⟩ := alnum_of_lowerBytes hfield
  have hcolon : ∀ b ∈ field, (b != 0x3A) = true := by
    intro b hb
    simpa [← UInt8.toNat_inj] using (plainByte_of_alnum (halnum b hb)).2.2
  have htake : (field ++ 0x3A :: (before ++ (host ++ port) ++ after)).takeWhile (· != 0x3A) =
      field := by
    rw [List.takeWhile_append_of_pos hcolon]
    simp
  have hdrop : ((field ++ 0x3A :: (before ++ (host ++ port) ++ after)).dropWhile
      (· != 0x3A)).drop 1 = before ++ (host ++ port) ++ after := by
    rw [List.dropWhile_append_of_pos hcolon]
    simp
  have hblank : ∀ b, PlainByte b → b ≠ 0x20 ∧ b ≠ 0x09 := by
    rintro b ⟨hb, -, -⟩
    constructor <;> rintro rfl <;> exact absurd hb (by decide)
  have hplain : ∀ b ∈ host, PlainByte b := hdns.plain
  have hhostNe : host ≠ [] := by
    rintro rfl
    have htwo := hdns.labels
    simp at htwo
  have hstrip : stripBlank (before ++ (host ++ port) ++ after) = host ++ port := by
    refine stripBlank_append hbefore hafter ?_ ?_ (by simp [hhostNe])
    · intro b hb
      rw [List.head?_append_of_ne_nil _ hhostNe] at hb
      exact hblank b (hplain b (List.mem_of_mem_head? hb))
    · intro b hb
      rcases hport with rfl | rfl
      · rw [List.append_nil] at hb
        exact hblank b (hplain b (List.mem_of_mem_getLast? hb))
      · simp only [httpsPortText_eq, List.getLast?_append, List.getLast?_cons_cons,
          List.getLast?_singleton, Option.some_or, Option.mem_some_iff] at hb
        subst hb
        decide
  have hcanonical : canonicalHostname host = some (lowerName name) :=
    canonicalHostname_eq_some.mpr ⟨hdns, hlower.symm⟩
  have hsingle : host.splitOn 0x3A = [host] :=
    List.splitOn_eq_singleton fun hmem => (hplain _ hmem).2.2 rfl
  have hvalue : parseHostField (before ++ (host ++ port) ++ after) = some (lowerName name) := by
    rw [parseHostField, hstrip]
    rcases hport with rfl | rfl
    · rw [List.append_nil, hsingle]
      exact hcanonical
    · rw [List.splitOn_append_cons_self, hsingle,
        List.splitOn_eq_singleton (show (0x3A : UInt8) ∉ httpsPortText by simp [httpsPortText_eq])]
      simpa using hcanonical
  have hcontrol : ((before ++ (host ++ port) ++ after).any fun b =>
      (b < 0x20 && b != 0x09) || b == 0x7F) = false := by
    rw [List.any_eq_false]
    intro b hb
    have hfine := hbytes b (List.mem_append_right _ (List.mem_cons_of_mem _ hb))
    simp only [Bool.or_eq_true, Bool.and_eq_true, decide_eq_true_eq, bne_iff_ne, beq_iff_eq,
      UInt8.lt_iff_toNat_lt, ← UInt8.toNat_inj, not_or, not_and, ne_eq] at hfine ⊢
    change b.toNat = 9 ∨ _ at hfine
    change (b.toNat < 32 → ¬¬b.toNat = 9) ∧ ¬b.toNat = 127
    omega
  have hfirst : (field ++ 0x3A :: (before ++ (host ++ port) ++ after)).head?.any
      (fun b => b == 0x20 || b == 0x09) = false := by
    obtain ⟨b, rest, rfl⟩ := List.exists_cons_of_ne_nil hne
    simpa using hblank b (plainByte_of_alnum (halnum b (by simp)))
  have hmem : (field ++ 0x3A :: (before ++ (host ++ port) ++ after)).contains 0x3A = true := by
    simp
  have hnames : field.all isHeaderNameByte = true :=
    List.all_eq_true.mpr fun b hb => isHeaderNameByte_of_alnum (halnum b hb)
  simp only [checkField, bind_eq_ok, require_eq_ok, exists_const, htake, hdrop, hvalue, hcontrol,
    hfield, hfirst, hmem, hnames]
  exact ⟨by simp, by simp [hne], trivial, rfl, beq_self_eq_true _, by simp, rfl⟩

/-! ## The grammar -/

/-- An accepted authority is a DNS name with the port 443. -/
theorem parseAuthority_eq_some_iff {authority : Bytes} {host : PyStr} :
    parseAuthority authority = some host ↔
      ∃ name, authority = name ++ 0x3A :: httpsPortText ∧ DnsName name ∧ host = lowerName name := by
  constructor
  · intro h
    unfold parseAuthority at h
    split at h
    · next name port hparts =>
      split_ifs at h with hport
      have hjoin : List.intercalate [0x3A] (authority.splitOn 0x3A) = authority :=
        List.intercalate_splitOn _
      rw [hparts, hport, List.intercalate_cons_cons, List.intercalate_singleton] at hjoin
      refine ⟨name, ?_, canonicalHostname_eq_some.mp h⟩
      rw [← hjoin, List.append_assoc, List.singleton_append]
    · cases h
  · rintro ⟨name, rfl, hname, rfl⟩
    have hsingle : name.splitOn 0x3A = [name] :=
      List.splitOn_eq_singleton fun hmem => (hname.plain _ hmem).2.2 rfl
    rw [parseAuthority, List.splitOn_append_cons_self, hsingle,
      List.splitOn_eq_singleton (show (0x3A : UInt8) ∉ httpsPortText by simp [httpsPortText_eq])]
    simpa using canonicalHostname_eq_some.mpr ⟨hname, rfl⟩

/-- Under HTTP/1.0 there is no field, and under HTTP/1.1 the `Host` field of the name. -/
theorem checkHeaderFields_eq_ok {name version : Bytes} {fields : List Bytes} (hname : DnsName name) :
    checkHeaderFields (lowerName name) version fields = .ok () ↔
      version = bytesLit "HTTP/1.0" ∧ fields = [] ∨
        version = bytesLit "HTTP/1.1" ∧ ∃ line, fields = [line] ∧ HostField name line := by
  unfold checkHeaderFields
  by_cases h10 : version = bytesLit "HTTP/1.0"
  · have h11 : bytesLit "HTTP/1.0" ≠ bytesLit "HTTP/1.1" := by decide
    simp [h10, h11]
  · rw [if_neg h10]
    simp only [h10, false_and, false_or, bind_eq_ok, require_eq_ok, beq_iff_eq, exists_const]
    refine and_congr_right fun _ => ?_
    constructor
    · rintro ⟨n, hn, rfl⟩
      obtain ⟨line, rfl⟩ := foldlM_checkField hn
      simp only [List.foldlM_cons, List.foldlM_nil, bind_pure] at hn
      exact ⟨line, rfl, hostField_of_checkField hname hn⟩
    · rintro ⟨line, rfl, hline⟩
      refine ⟨1, ?_, rfl⟩
      simp only [List.foldlM_cons, List.foldlM_nil, bind_pure]
      exact checkField_of_hostField hname hline

theorem exists_body {head : Bytes} {target : HttpsConnectTarget}
    (h : parseHttpsConnectRequestHead head = .ok target) :
    ∃ body, head = body ++ headerTerminator := by
  simp only [parseHttpsConnectRequestHead, bind_eq_ok, require_eq_ok, Bool.and_eq_true,
    exists_const] at h
  obtain ⟨-, -, ⟨hsuffix, -⟩, -⟩ := h
  obtain ⟨body, hbody⟩ := List.isSuffixOf_iff_suffix.mp hsuffix
  exact ⟨body, hbody.symm⟩

/-- An accepted head is in the grammar. -/
theorem connectHead_of_parse {head : Bytes} {target : HttpsConnectTarget}
    (h : parseHttpsConnectRequestHead head = .ok target) :
    head.length ≤ maxConnectRequestHeadBytes ∧ ConnectHead head target := by
  obtain ⟨body, rfl⟩ := exists_body h
  obtain ⟨hlen, -, line, fields, authority, version, host, hlines, -, -, hwords, hauthority,
    hfields, rfl⟩ := parse_eq_ok.mp h
  refine ⟨hlen, ?_⟩
  obtain ⟨name, rfl, hname, rfl⟩ := parseAuthority_eq_some_iff.mp hauthority
  have hjoin : List.intercalate [0x20] (line.splitOn 0x20) = line := List.intercalate_splitOn _
  have hline : line = requestLine name version := by
    rw [← hjoin, hwords, List.intercalate_cons_cons, List.intercalate_cons_cons,
      List.intercalate_singleton]
    simp [requestLine]
  have hbody := intercalate_splitLines body
  rw [hlines, hline] at hbody
  rcases (checkHeaderFields_eq_ok hname).mp hfields with ⟨rfl, rfl⟩ | ⟨rfl, field, rfl, hfield⟩
  · rw [List.intercalate_singleton] at hbody
    rw [← hbody]
    exact .http10 hname
  · rw [List.intercalate_cons_cons, List.intercalate_singleton, List.append_assoc] at hbody
    rw [← hbody]
    exact .http11 hname hfield

/-- The request line of a name is printable, and three words. -/
theorem requestLine_facts {name version : Bytes} (hname : DnsName name)
    (hversion : version = bytesLit "HTTP/1.0" ∨ version = bytesLit "HTTP/1.1") :
    ((requestLine name version).any fun b => b < 0x20 || b == 0x7F) = false ∧
      0x0D ∉ requestLine name version ∧
      (requestLine name version).splitOn 0x20 =
        [bytesLit "CONNECT", name ++ 0x3A :: httpsPortText, version] := by
  have hfixed : ∀ l ∈ [bytesLit "CONNECT", 0x3A :: httpsPortText, bytesLit "HTTP/1.0",
      bytesLit "HTTP/1.1"], ∀ b ∈ l, 33 ≤ b.toNat ∧ b.toNat ≤ 122 := by
    have hconnect : bytesLit "CONNECT" = [0x43, 0x4F, 0x4E, 0x4E, 0x45, 0x43, 0x54] := by decide
    have hfirst : bytesLit "HTTP/1.0" = [0x48, 0x54, 0x54, 0x50, 0x2F, 0x31, 0x2E, 0x30] := by
      decide
    have hsecond : bytesLit "HTTP/1.1" = [0x48, 0x54, 0x54, 0x50, 0x2F, 0x31, 0x2E, 0x31] := by
      decide
    rw [hconnect, httpsPortText_eq, hfirst, hsecond]
    simp
  have hversionBytes : ∀ b ∈ version, 33 ≤ b.toNat ∧ b.toNat ≤ 122 :=
    hfixed version (by rcases hversion with rfl | rfl <;> simp)
  have hauthority : ∀ b ∈ name ++ 0x3A :: httpsPortText, 33 ≤ b.toNat ∧ b.toNat ≤ 122 := by
    intro b hb
    rcases List.mem_append.mp hb with hb | hb
    · obtain ⟨hlow, hhigh, -⟩ := hname.plain b hb
      exact ⟨by omega, hhigh⟩
    · exact hfixed (0x3A :: httpsPortText) (by simp) b hb
  have hbytes : ∀ b ∈ requestLine name version, 32 ≤ b.toNat ∧ b.toNat ≤ 122 := by
    intro b hb
    rw [requestLine, List.mem_append, List.mem_append, List.mem_cons, List.mem_cons] at hb
    rcases hb with (hb | rfl | hb) | rfl | hb
    · have hword := hfixed (bytesLit "CONNECT") (by simp) b hb
      omega
    · decide
    · have hword := hauthority b hb
      omega
    · decide
    · have hword := hversionBytes b hb
      omega
  have hword : ∀ l : Bytes, (∀ b ∈ l, 33 ≤ b.toNat ∧ b.toNat ≤ 122) → l.splitOn 0x20 = [l] :=
    fun l hl => List.splitOn_eq_singleton fun hmem => absurd (hl _ hmem) (by decide)
  refine ⟨?_, fun hmem => absurd (hbytes _ hmem) (by decide), ?_⟩
  · rw [List.any_eq_false]
    intro b hb
    have hb := hbytes b hb
    simp only [Bool.or_eq_true, decide_eq_true_eq, beq_iff_eq, UInt8.lt_iff_toNat_lt,
      ← UInt8.toNat_inj]
    change ¬(b.toNat < 32 ∨ b.toNat = 127)
    omega
  · rw [requestLine, List.splitOn_append_cons_self, List.splitOn_append_cons_self,
      hword _ (hfixed (bytesLit "CONNECT") (by simp)), hword _ hauthority, hword _ hversionBytes]
    rfl

/-- A head of the grammar is accepted. -/
theorem parse_of_connectHead {head : Bytes} {target : HttpsConnectTarget}
    (hlen : head.length ≤ maxConnectRequestHeadBytes) (h : ConnectHead head target) :
    parseHttpsConnectRequestHead head = .ok target := by
  cases h with
  | @http10 name hname =>
    obtain ⟨hcontrol, hcr, hwords⟩ := requestLine_facts hname (Or.inl rfl)
    refine parse_eq_ok.mpr ⟨hlen, ?_, _, [], _, _, _, splitLines_of_not_mem hcr, by simp, hcontrol,
      hwords, parseAuthority_eq_some_iff.mpr ⟨name, rfl, hname, rfl⟩,
      (checkHeaderFields_eq_ok hname).mpr (Or.inl ⟨rfl, rfl⟩), rfl⟩
    rw [headerTerminator, countFrom_append hcr]
    decide
  | @http11 name line hname hline =>
    obtain ⟨hcontrol, hcr, hwords⟩ := requestLine_facts hname (Or.inr rfl)
    have hcr' : (0x0D : UInt8) ∉ line :=
      fun hmem => absurd (hline.bytes hname _ hmem) (by decide)
    have hne : line ≠ [] := by
      obtain ⟨field, before, host, port, after, rfl, -⟩ := hline
      simp
    refine parse_eq_ok.mpr ⟨hlen, ?_, _, [line], _, _, _, ?_, by simp [maxConnectRequestHeaders],
      hcontrol, hwords, parseAuthority_eq_some_iff.mpr ⟨name, rfl, hname, rfl⟩,
      (checkHeaderFields_eq_ok hname).mpr (Or.inr ⟨rfl, line, rfl, hline⟩), rfl⟩
    · rw [headerTerminator, List.append_assoc, countFrom_append hcr, List.cons_append, countFrom,
        if_neg ?_, countFrom_append (by simp [hcr'])]
      · decide
      · -- the field does not begin with a carriage return
        obtain ⟨b, rest, rfl⟩ := List.exists_cons_of_ne_nil hne
        rw [List.mem_cons, not_or] at hcr'
        simp [List.isPrefixOf, hcr'.1]
    · rw [splitLines_append, splitLines_of_not_mem hcr, splitLines_of_not_mem hcr']
      rfl

/-- The parser accepts the heads of the grammar that are at most 16 KiB long, each with its own
target, and refuses every other byte string with its own error. -/
theorem parse_iff_connectHead (head : Bytes) :
    (∀ target, parseHttpsConnectRequestHead head = .ok target ↔
      head.length ≤ 16 * 1024 ∧ ConnectHead head target) ∧
    ((∀ target, ¬(head.length ≤ 16 * 1024 ∧ ConnectHead head target)) →
      parseHttpsConnectRequestHead head = .error .invalid) := by
  have haccepted : ∀ target, parseHttpsConnectRequestHead head = .ok target ↔
      head.length ≤ 16 * 1024 ∧ ConnectHead head target :=
    fun target => ⟨connectHead_of_parse, fun h => parse_of_connectHead h.1 h.2⟩
  refine ⟨haccepted, fun hnone => ?_⟩
  cases hparse : parseHttpsConnectRequestHead head with
  | ok target => exact absurd ((haccepted target).mp hparse) (hnone target)
  | error e => rfl

end Icode
