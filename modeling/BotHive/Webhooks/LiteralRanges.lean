import BotHive.Webhooks.AddressTexts

/-!
# The private ranges behind the guard

The guard recognises private ranges by patterns on the canonical text. Read as sets of
addresses, the patterns hit every range that is meant, with two exceptions: the addresses from
`::2` to `::ffff`, which embed an IPv4 address of `0.0.0.0/8`, have a text with one piece only;
and an address of `2001:0::/32` whose zero run begins at its second piece has a text that does
not begin with `2001:0:`.

## Main results

- `isPrivateIp_v4`: for IPv4 the patterns are the ranges
- `isPrivateIp_of_blocked`, `isPrivateIp_of_missed`: for IPv6 they are the ranges without the
  two exceptions
- `blocksAsMeant_iff`: a URL with an address as its host is judged as meant exactly if the
  address is not one that is missed
-/

namespace BotHive.Webhooks

/-- The private subnets of IPv4, by their first addresses and the lengths of their masks. -/
def blockedNets4 : List (ℕ × ℕ) :=
  [(0x00000000, 8), (0x0a000000, 8), (0x64400000, 10), (0x7f000000, 8), (0xa9fe0000, 16),
    (0xac100000, 12), (0xc0a80000, 16), (0xe0000000, 3)]

/-- The subnets of IPv6 that are private themselves or can tunnel private addresses. -/
def blockedNets6 : List (ℕ × ℕ) :=
  [(0xfc00 * 2 ^ 112, 7), (0xfe80 * 2 ^ 112, 10), (0xff00 * 2 ^ 112, 8), (0x2002 * 2 ^ 112, 16),
    (0x20010000 * 2 ^ 96, 32)]

def Blocked4 (v : ℕ) : Prop :=
  ∃ net ∈ blockedNets4, InSubnet 32 net.1 net.2 v

instance (v : ℕ) : Decidable (Blocked4 v) :=
  inferInstanceAs (Decidable (∃ net ∈ blockedNets4, InSubnet 32 net.1 net.2 v))

/-- The unspecified and the loopback address, the mapped and compatible forms of the private
    addresses of IPv4, and the private subnets. -/
def Blocked6 (v : ℕ) : Prop :=
  v = 0 ∨ v = 1 ∨ (InSubnet 128 (0xffff * 2 ^ 32) 96 v ∧ Blocked4 (v % 2 ^ 32)) ∨
    (InSubnet 128 0 96 v ∧ Blocked4 (v % 2 ^ 32)) ∨ ∃ net ∈ blockedNets6, InSubnet 128 net.1 net.2 v

/-- The addresses that the guard means to block. -/
def Blocked : Address → Prop
  | .v4 a => Blocked4 a.value
  | .v6 a => Blocked6 a.value

/-- The private addresses that no pattern hits. -/
def Missed : Address → Prop
  | .v4 _ => False
  | .v6 a => (2 ≤ a.value ∧ a.value < 2 ^ 16) ∨
      (InSubnet 128 (0x20010000 * 2 ^ 96) 32 a.value ∧ compressed? (pieces a.value) = some 1)

section Version4

theorem blocked4_iff {v : ℕ} (hv : v < 2 ^ 32) :
    Blocked4 v ↔ v / 2 ^ 24 = 0 ∨ v / 2 ^ 24 = 10 ∨ v / 2 ^ 22 = 0x191 ∨ v / 2 ^ 24 = 127 ∨
      v / 2 ^ 16 = 0xa9fe ∨ v / 2 ^ 20 = 0xac1 ∨ v / 2 ^ 16 = 0xc0a8 ∨ 224 ≤ v / 2 ^ 24 := by
  simp only [Blocked4, blockedNets4, InSubnet, List.mem_cons, List.not_mem_nil, or_false,
    exists_eq_or_imp, exists_eq_left]
  omega

/-- For IPv4 the patterns are the ranges. -/
theorem isPrivateIp_v4 {v : ℕ} (hv : v < 2 ^ 32) : isPrivateIp (dottedText v) = decide (Blocked4 v) := by
  rw [isPrivateIp_of_isIP_four (isIP_dottedText v), isPrivateIpv4, parseDecimal_octets]
  simp only [octets]
  rw [Bool.eq_iff_iff, decide_eq_true_iff, blocked4_iff hv]
  simp only [Bool.or_eq_true, Bool.and_eq_true, decide_eq_true_eq]
  omega

end Version4

section Fields

theorem exists_cons_gap (l r : List (List Char)) : ∃ g rest, l ++ [] :: r = g :: rest :=
  List.exists_cons_of_ne_nil (List.append_ne_nil_of_right_ne_nil l (List.cons_ne_nil [] r))

/-- Where the first piece is not zero, the text begins with it. -/
theorem fields_of_ne_zero {n : ℕ} (hn : n ≠ 0) {l : List ℕ} (hl : l ≠ []) :
    ∃ g rest, fields (n :: l) = Nat.toDigits 16 n :: g :: rest := by
  cases hzero : compressed? (n :: l) with
  | none =>
    obtain ⟨m, l', rfl⟩ := List.exists_cons_of_ne_nil hl
    exact ⟨_, _, by rw [fields, hzero]; rfl⟩
  | some i =>
    cases i with
    | zero => exact absurd hzero (compressed?_ne_zero hn l)
    | succ i =>
      have hside : sideFields ((n :: l).take (i + 1)) =
          Nat.toDigits 16 n :: (l.take i).map (Nat.toDigits 16) := by
        rw [sideFields, if_neg (by simp)]
        rfl
      rw [fields, hzero]
      simp only [hside, List.cons_append]
      obtain ⟨g, rest, hrest⟩ := exists_cons_gap ((l.take i).map (Nat.toDigits 16))
        (sideFields (List.drop (i + 1 + zeroRun (List.drop (i + 1) (n :: l))) (n :: l)))
      exact ⟨g, rest, by rw [hrest]⟩

/-- Where the second piece is zero, it is written unless the zero run begins there. -/
theorem fields_of_second_zero {n : ℕ} (hn : n ≠ 0) (m : ℕ) (l : List ℕ) :
    ∃ g rest, fields (n :: 0 :: m :: l) =
      Nat.toDigits 16 n :: (if compressed? (n :: 0 :: m :: l) = some 1 then [] else ['0']) ::
        g :: rest := by
  have hdigit : Nat.toDigits 16 0 = ['0'] := Nat.toDigits_zero 16
  cases hzero : compressed? (n :: 0 :: m :: l) with
  | none =>
    refine ⟨Nat.toDigits 16 m, l.map (Nat.toDigits 16), ?_⟩
    rw [fields, hzero]
    simp [hdigit]
  | some i =>
    obtain hi | hi | ⟨i, rfl⟩ : i = 0 ∨ i = 1 ∨ ∃ j, i = j + 2 := by
      rcases i with _ | _ | i
      · exact .inl rfl
      · exact .inr (.inl rfl)
      · exact .inr (.inr ⟨i, rfl⟩)
    · exact absurd (hi ▸ hzero) (compressed?_ne_zero hn _)
    · subst hi
      obtain ⟨g, rest, hrest⟩ := List.exists_cons_of_ne_nil (sideFields_ne_nil
        (List.drop (1 + zeroRun (List.drop 1 (n :: 0 :: m :: l))) (n :: 0 :: m :: l)))
      refine ⟨g, rest, ?_⟩
      rw [fields, hzero]
      simp only [hrest]
      rfl
    · have hside : sideFields ((n :: 0 :: m :: l).take (i + 2)) =
          Nat.toDigits 16 n :: ['0'] :: ((m :: l).take i).map (Nat.toDigits 16) := by
        rw [sideFields, if_neg (by simp), List.take_succ_cons, List.take_succ_cons, List.map_cons,
          List.map_cons, hdigit]
      have hne : ¬ some (i + 2) = some 1 := by
        simp
      rw [fields, hzero, if_neg hne]
      simp only [hside, List.cons_append]
      obtain ⟨g, rest, hrest⟩ := exists_cons_gap (((m :: l).take i).map (Nat.toDigits 16))
        (sideFields (List.drop (i + 2 + zeroRun (List.drop (i + 2) (n :: 0 :: m :: l)))
          (n :: 0 :: m :: l)))
      exact ⟨g, rest, by rw [hrest]⟩

theorem fields_mapped (x y : ℕ) :
    fields [0, 0, 0, 0, 0, 0xffff, x, y] =
      [[], [], "ffff".toList, Nat.toDigits 16 x, Nat.toDigits 16 y] := by
  have hrun : zeroRun [0, 0, 0, 0, 0, 0xffff, x, y] = 5 := by
    simp only [zeroRun_zero_cons, zeroRun_cons_of_ne (show 0xffff ≠ 0 by decide)]
  have hpiece : Nat.toDigits 16 0xffff = "ffff".toList := by decide
  rw [fields, compressed?_of_five_zeros]
  simp only [List.drop_zero, hrun, List.take_zero, sideFields]
  simp [hpiece]

theorem fields_compatible {x : ℕ} (hx : x ≠ 0) (y : ℕ) :
    fields [0, 0, 0, 0, 0, 0, x, y] = [[], [], Nat.toDigits 16 x, Nat.toDigits 16 y] := by
  have hrun : zeroRun [0, 0, 0, 0, 0, 0, x, y] = 6 := by
    simp only [zeroRun_zero_cons, zeroRun_cons_of_ne hx]
  rw [fields, compressed?_of_five_zeros]
  simp only [List.drop_zero, hrun, List.take_zero, sideFields]
  simp

theorem fields_one_piece {y : ℕ} (hy : y ≠ 0) :
    fields [0, 0, 0, 0, 0, 0, 0, y] = [[], [], Nat.toDigits 16 y] := by
  have hrun : zeroRun [0, 0, 0, 0, 0, 0, 0, y] = 7 := by
    simp only [zeroRun_zero_cons, zeroRun_cons_of_ne hy]
  rw [fields, compressed?_of_five_zeros]
  simp only [List.drop_zero, hrun, List.take_zero, sideFields]
  simp

end Fields

section Version6

variable {a : Ipv6}

theorem ipv4FromMappedV6_text {c : Char} {f : List Char} {rest : List (List Char)}
    (h : fields (pieces a.value) = (c :: f) :: rest) : ipv4FromMappedV6 a.text = none := by
  rw [ipv4FromMappedV6, toLowerCase_text, a.splitOn_text, h]

/-- A text that begins with a piece is judged by the patterns on its beginning. -/
theorem isPrivateIp_of_head {c : Char} {f g : List Char} {rest : List (List Char)}
    (h : fields (pieces a.value) = (c :: f) :: g :: rest) :
    a.text = (c :: f) ++ ':' :: [':'].intercalate (g :: rest) ∧
      isPrivateIp a.text =
        ("fc".toList.isPrefixOf a.text || "fd".toList.isPrefixOf a.text || isLinkLocal a.text ||
          "ff".toList.isPrefixOf a.text || "2002:".toList.isPrefixOf a.text ||
          "2001:0:".toList.isPrefixOf a.text) := by
  have htext : a.text = (c :: f) ++ ':' :: [':'].intercalate (g :: rest) := by
    rw [Ipv6.text, h, List.intercalate_cons_cons, List.append_assoc, List.singleton_append]
  have hcolon : c ≠ ':' := by
    rintro rfl
    cases mem_fields (h ▸ List.mem_cons_self) List.mem_cons_self
  have hspecial : ¬ (a.text = "::".toList ∨ a.text = "::1".toList) := by
    rw [htext]
    rintro (heq | heq) <;> exact hcolon (List.cons_eq_cons.mp heq).1
  have hne : a.text ≠ [] := by
    rw [htext]
    exact List.cons_ne_nil _ _
  refine ⟨htext, ?_⟩
  rw [isPrivateIp, if_neg hne, isIP_text, toLowerCase_text]
  simp only [if_neg hspecial, ipv4FromMappedV6_text h]
  rfl

/-- The four digits of a piece. -/
theorem toDigits_four {p : ℕ} (hlow : 0x1000 ≤ p) (hp : p < 2 ^ 16) :
    Nat.toDigits 16 p = [(p / 0x1000).digitChar, (p / 0x100 % 16).digitChar,
      (p / 16 % 16).digitChar, (p % 16).digitChar] := by
  have h1 : p / 16 / 16 = p / 0x100 := by omega
  have h2 : p / 0x100 / 16 = p / 0x1000 := by omega
  rw [Nat.toDigits_of_base_le (by decide) (by omega : 16 ≤ p),
    Nat.toDigits_of_base_le (by decide) (by omega : 16 ≤ p / 16), h1,
    Nat.toDigits_of_base_le (by decide) (by omega : 16 ≤ p / 0x100), h2,
    Nat.toDigits_of_lt_base (by omega : p / 0x1000 < 16)]
  rfl

/-- The text of an address whose first piece has four digits. -/
theorem isPrivateIp_of_four_digits (hlow : 0x1000 ≤ a.value / 2 ^ 112) :
    ∃ tail, a.text = [(a.value / 2 ^ 112 / 0x1000).digitChar,
        (a.value / 2 ^ 112 / 0x100 % 16).digitChar, (a.value / 2 ^ 112 / 16 % 16).digitChar,
        (a.value / 2 ^ 112 % 16).digitChar] ++ ':' :: tail ∧
      isPrivateIp a.text =
        ("fc".toList.isPrefixOf a.text || "fd".toList.isPrefixOf a.text || isLinkLocal a.text ||
          "ff".toList.isPrefixOf a.text || "2002:".toList.isPrefixOf a.text ||
          "2001:0:".toList.isPrefixOf a.text) := by
  have hlt := a.value_lt
  have hpiece : a.value / 2 ^ 112 % 2 ^ 16 = a.value / 2 ^ 112 := by omega
  obtain ⟨g, rest, hfields⟩ := fields_of_ne_zero (n := a.value / 2 ^ 112 % 2 ^ 16)
    (l := (pieces a.value).tail) (by omega) (by simp [pieces])
  rw [hpiece, toDigits_four hlow (by omega)] at hfields
  have hpieces : pieces a.value = a.value / 2 ^ 112 :: (pieces a.value).tail := by
    rw [pieces, List.tail_cons, hpiece]
  rw [← hpieces] at hfields
  obtain ⟨htext, hprivate⟩ := isPrivateIp_of_head hfields
  exact ⟨_, htext, hprivate⟩

/-- The subnets other than `2001:0::/32` are hit by the patterns on the first piece. -/
theorem isPrivateIp_of_subnet (h : InSubnet 128 (0xfc00 * 2 ^ 112) 7 a.value ∨
    InSubnet 128 (0xfe80 * 2 ^ 112) 10 a.value ∨ InSubnet 128 (0xff00 * 2 ^ 112) 8 a.value ∨
    InSubnet 128 (0x2002 * 2 ^ 112) 16 a.value) : isPrivateIp a.text = true := by
  have hlt := a.value_lt
  simp only [InSubnet] at h
  obtain ⟨tail, htext, hprivate⟩ := isPrivateIp_of_four_digits (a := a) (by omega)
  rw [hprivate, htext]
  obtain h | h | h | h := h
  · -- the second digit of fc00::/7 is c or d
    have h1 : a.value / 2 ^ 112 / 0x1000 = 15 := by omega
    have h2 : a.value / 2 ^ 112 / 0x100 % 16 = 12 ∨ a.value / 2 ^ 112 / 0x100 % 16 = 13 := by omega
    rw [h1]
    rcases h2 with h2 | h2 <;> rw [h2] <;> simp [Nat.digitChar]
  · -- the third digit of fe80::/10 is one of 8, 9, a and b
    have h1 : a.value / 2 ^ 112 / 0x1000 = 15 := by omega
    have h2 : a.value / 2 ^ 112 / 0x100 % 16 = 14 := by omega
    have h3 : a.value / 2 ^ 112 / 16 % 16 = 8 ∨ a.value / 2 ^ 112 / 16 % 16 = 9 ∨
        a.value / 2 ^ 112 / 16 % 16 = 10 ∨ a.value / 2 ^ 112 / 16 % 16 = 11 := by omega
    rw [h1, h2]
    rcases h3 with h3 | h3 | h3 | h3 <;> rw [h3] <;> simp [Nat.digitChar, isLinkLocal]
  · have h1 : a.value / 2 ^ 112 / 0x1000 = 15 := by omega
    have h2 : a.value / 2 ^ 112 / 0x100 % 16 = 15 := by omega
    rw [h1, h2]
    simp [Nat.digitChar]
  · have h1 : a.value / 2 ^ 112 = 0x2002 := by omega
    rw [h1]
    simp [Nat.digitChar]

/-- The subnet `2001:0::/32` is hit unless the zero run begins at its second piece. -/
theorem isPrivateIp_of_teredo (h : InSubnet 128 (0x20010000 * 2 ^ 96) 32 a.value) :
    isPrivateIp a.text = !decide (compressed? (pieces a.value) = some 1) := by
  have hlt := a.value_lt
  simp only [InSubnet] at h
  have hpieces : pieces a.value = 0x2001 :: 0 :: a.value / 2 ^ 80 % 2 ^ 16 ::
      (pieces a.value).drop 3 := by
    have h1 : a.value / 2 ^ 112 % 2 ^ 16 = 0x2001 := by omega
    have h2 : a.value / 2 ^ 96 % 2 ^ 16 = 0 := by omega
    simp only [pieces, h1, h2, List.drop_succ_cons, List.drop_zero]
  have hpiece : Nat.toDigits 16 0x2001 = ['2', '0', '0', '1'] := by decide
  obtain ⟨g, rest, hfields⟩ := fields_of_second_zero (show 0x2001 ≠ 0 by decide)
    (a.value / 2 ^ 80 % 2 ^ 16) ((pieces a.value).drop 3)
  rw [← hpieces, hpiece] at hfields
  obtain ⟨htext, hprivate⟩ := isPrivateIp_of_head hfields
  rw [hprivate, htext]
  by_cases hrun : compressed? (pieces a.value) = some 1
  · simp [hrun, List.intercalate_cons_cons, isLinkLocal, List.isPrefixOf]
  · simp [hrun, List.intercalate_cons_cons, isLinkLocal]

section Embedding

theorem parseHex_and (n : ℕ) (h : n < 2 ^ 16) : parseHex (Nat.toDigits 16 n) &&& 0xffff = n := by
  have hmask : n &&& 0xffff = n % 2 ^ 16 := Nat.and_two_pow_sub_one_eq_mod n 16
  rw [parseHex_toDigits, hmask, Nat.mod_eq_of_lt h]

theorem hexPair?_toDigits {x y : ℕ} (hx : x < 2 ^ 16) (hy : y < 2 ^ 16) :
    hexPair? (Nat.toDigits 16 x) (Nat.toDigits 16 y) = some (x * 2 ^ 16 + y) := by
  have hlower (n : ℕ) : toLowerCase (Nat.toDigits 16 n) = Nat.toDigits 16 n := by
    refine toLowerCase_of_addressChars fun c hc => ?_
    simp [isAddressChar, isLowerHex_of_mem_toDigits hc]
  have hhex (n : ℕ) (hn : n < 2 ^ 16) : isHex4 (Nat.toDigits 16 n) = true := by
    rw [← hlower n]
    exact isHex4_toDigits hn
  rw [hexPair?, hhex x hx, hhex y hy, parseHex_and x hx, parseHex_and y hy, Nat.shiftLeft_eq]
  rfl

theorem quad?_toDigits (y : ℕ) : quad? (Nat.toDigits 16 y) = none := by
  have hdot : '.' ∉ Nat.toDigits 16 y := by
    intro h
    cases isLowerHex_of_mem_toDigits h
  rw [quad?, List.splitOn_eq_singleton hdot]

/-- A mapped address embeds its low half. -/
theorem ipv4FromMappedV6_mapped (h : a.value / 2 ^ 32 = 0xffff) :
    ipv4FromMappedV6 a.text = some (dottedText (a.value % 2 ^ 32)) := by
  have hpieces : pieces a.value =
      [0, 0, 0, 0, 0, 0xffff, a.value / 2 ^ 16 % 2 ^ 16, a.value % 2 ^ 16] := by
    simp only [pieces, List.cons.injEq, and_true]
    omega
  have hlow : a.value / 2 ^ 16 % 2 ^ 16 * 2 ^ 16 + a.value % 2 ^ 16 = a.value % 2 ^ 32 := by omega
  rw [ipv4FromMappedV6, toLowerCase_text, a.splitOn_text, hpieces, fields_mapped]
  simp only [if_true]
  rw [hexPair?_toDigits (Nat.mod_lt _ (by decide)) (Nat.mod_lt _ (by decide)), hlow,
    Option.map_some, uint32ToIpv4_eq]

/-- A compatible address of two pieces embeds itself. -/
theorem ipv4FromMappedV6_compatible (h : a.value / 2 ^ 32 = 0) (hlow : 2 ^ 16 ≤ a.value) :
    ipv4FromMappedV6 a.text = some (dottedText (a.value % 2 ^ 32)) := by
  have hpieces : pieces a.value =
      [0, 0, 0, 0, 0, 0, a.value / 2 ^ 16 % 2 ^ 16, a.value % 2 ^ 16] := by
    simp only [pieces, List.cons.injEq, and_true]
    omega
  have hvalue : a.value / 2 ^ 16 % 2 ^ 16 * 2 ^ 16 + a.value % 2 ^ 16 = a.value % 2 ^ 32 := by
    omega
  rw [ipv4FromMappedV6, toLowerCase_text, a.splitOn_text, hpieces,
    fields_compatible (by omega)]
  simp only [quad?_toDigits, ite_self]
  rw [hexPair?_toDigits (Nat.mod_lt _ (by decide)) (Nat.mod_lt _ (by decide)), hvalue,
    Option.map_some, uint32ToIpv4_eq]

theorem isPrivateIp_of_embedding
    (h : ipv4FromMappedV6 a.text = some (dottedText (a.value % 2 ^ 32))) :
    isPrivateIp a.text = decide (Blocked4 (a.value % 2 ^ 32)) := by
  rw [isPrivateIp_embedded (isIP_text a) (toLowerCase_text a) h,
    isPrivateIp_v4 (Nat.mod_lt _ (by decide))]

/-- A compatible address of one piece is taken for a public one. -/
theorem isPrivateIp_of_one_piece (hlow : 2 ≤ a.value) (hhigh : a.value < 2 ^ 16) :
    isPrivateIp a.text = false := by
  have hpieces : pieces a.value = [0, 0, 0, 0, 0, 0, 0, a.value] := by
    simp only [pieces, List.cons.injEq, and_true]
    omega
  have hfields : fields (pieces a.value) = [[], [], Nat.toDigits 16 a.value] := by
    rw [hpieces, fields_one_piece (by omega)]
  have htext : a.text = ':' :: ':' :: Nat.toDigits 16 a.value := by
    rw [Ipv6.text, hfields]
    simp [List.intercalate_cons_cons]
  have hembedded : ipv4FromMappedV6 a.text = none := by
    rw [ipv4FromMappedV6, toLowerCase_text, a.splitOn_text, hfields]
    simp only [quad?_toDigits, Option.bind_none]
  have hone : Nat.toDigits 16 1 = ['1'] := by decide
  have hspecial : ¬ (a.text = "::".toList ∨ a.text = "::1".toList) := by
    rw [htext]
    rintro (heq | heq)
    · exact Nat.toDigits_ne_nil (List.cons_eq_cons.mp (List.cons_eq_cons.mp heq).2).2
    · have hdigits := (List.cons_eq_cons.mp (List.cons_eq_cons.mp heq).2).2
      have hvalue : a.value = 1 := toDigits_sixteen_inj (hdigits.trans hone.symm)
      omega
  have hne : a.text ≠ [] := by
    rw [htext]
    exact List.cons_ne_nil _ _
  rw [isPrivateIp, if_neg hne, isIP_text, toLowerCase_text]
  simp only [if_neg hspecial, hembedded]
  rw [htext]
  simp [isLinkLocal, List.isPrefixOf]

end Embedding

theorem isPrivateIp_of_special (h : a.value = 0 ∨ a.value = 1) : isPrivateIp a.text = true := by
  have htext : a.text = "::".toList ∨ a.text = "::1".toList := by
    refine h.imp (fun hzero => ?_) fun hone => ?_
    · rw [Ipv6.text, hzero]
      decide
    · rw [Ipv6.text, hone]
      decide
  rcases htext with htext | htext <;> rw [htext] <;> decide

/-- Every private address of IPv6 is judged private unless it is one of those missed. -/
theorem isPrivateIp_of_blocked (h : Blocked6 a.value) (hmissed : ¬ Missed (.v6 a)) :
    isPrivateIp a.text = true := by
  have hlt := a.value_lt
  obtain hzero | hone | ⟨hnet, h4⟩ | ⟨hnet, h4⟩ | hnets := h
  · exact isPrivateIp_of_special (.inl hzero)
  · exact isPrivateIp_of_special (.inr hone)
  · have hmapped : a.value / 2 ^ 32 = 0xffff := by
      simp only [InSubnet] at hnet
      omega
    rw [isPrivateIp_of_embedding (ipv4FromMappedV6_mapped hmapped), decide_eq_true h4]
  · have hcompatible : a.value / 2 ^ 32 = 0 := by
      simp only [InSubnet] at hnet
      omega
    by_cases hlow : 2 ^ 16 ≤ a.value
    · rw [isPrivateIp_of_embedding (ipv4FromMappedV6_compatible hcompatible hlow),
        decide_eq_true h4]
    · -- the address has one piece, so it is ::, ::1 or missed
      refine isPrivateIp_of_special ?_
      by_contra hother
      exact hmissed (.inl ⟨by omega, by omega⟩)
  · simp only [blockedNets6, List.mem_cons, List.not_mem_nil, or_false, exists_eq_or_imp,
      exists_eq_left] at hnets
    obtain hfc | hfe | hff | h6to4 | hteredo := hnets
    · exact isPrivateIp_of_subnet (.inl hfc)
    · exact isPrivateIp_of_subnet (.inr (.inl hfe))
    · exact isPrivateIp_of_subnet (.inr (.inr (.inl hff)))
    · exact isPrivateIp_of_subnet (.inr (.inr (.inr h6to4)))
    · have hrun : ¬ compressed? (pieces a.value) = some 1 := fun hrun => hmissed (.inr ⟨hteredo, hrun⟩)
      rw [isPrivateIp_of_teredo hteredo, decide_eq_false hrun]
      rfl

/-- **The defect**: the addresses that are missed are judged public. -/
theorem isPrivateIp_of_missed (h : Missed (.v6 a)) : isPrivateIp a.text = false := by
  obtain ⟨hlow, hhigh⟩ | ⟨hteredo, hrun⟩ := h
  · exact isPrivateIp_of_one_piece hlow hhigh
  · rw [isPrivateIp_of_teredo hteredo, decide_eq_true hrun]
    rfl

end Version6

section Literals

/-- A URL with an address as its host is judged as meant: a private address is refused, and an
    IPv4 address that is not private is allowed. -/
def BlocksAsMeant (allowed : Bool) (a : Address) : Prop :=
  (Blocked a → allowed = false) ∧ ∀ v, a = .v4 v → ¬ Blocked a → allowed = true

variable {env : GuardEnv} {parseUrl : String → Option Url} {rawUrl : String} {url : Url}
  {a : Address}

/-- The guard on a URL with an address as its host. -/
theorem isWebhookUrlAllowed_host (hparse : parseUrl rawUrl = some url)
    (hprotocol : url.protocol = "http:" ∨ url.protocol = "https:")
    (hhost : url.hostname = String.ofList a.host) :
    isWebhookUrlAllowed env parseUrl rawUrl =
      (decide (env.allowPrivateWebhookUrls = some "true") || !isPrivateIp a.text) := by
  have hscheme : ¬ (url.protocol ≠ "http:" ∧ url.protocol ≠ "https:") := by
    rintro ⟨hhttp, hhttps⟩
    exact hprotocol.elim hhttp hhttps
  rw [isWebhookUrlAllowed]
  split_ifs with hallow
  · rw [decide_eq_true hallow, Bool.true_or]
  · simp only [hparse, if_neg hscheme]
    rw [hhost, isHostAllowed_host, decide_eq_false hallow, Bool.false_or]

theorem isPrivateIp_iff_of_blocked (h : Blocked a) : isPrivateIp a.text = true ↔ ¬ Missed a := by
  cases a with
  | v4 v =>
    show isPrivateIp (dottedText v.value) = true ↔ ¬ False
    rw [isPrivateIp_v4 v.value_lt, decide_eq_true_iff]
    exact ⟨fun _ => not_false, fun _ => h⟩
  | v6 v =>
    refine ⟨fun hprivate hmissed => ?_, isPrivateIp_of_blocked h⟩
    rw [Address.text, isPrivateIp_of_missed hmissed] at hprivate
    cases hprivate

/-- Which URLs with an address as their host are judged as meant. -/
theorem blocksAsMeant_iff (env : GuardEnv) (parseUrl : String → Option Url) (rawUrl : String)
    (url : Url) (a : Address) (hparse : parseUrl rawUrl = some url)
    (hprotocol : url.protocol = "http:" ∨ url.protocol = "https:")
    (hhost : url.hostname = String.ofList a.host) :
    BlocksAsMeant (isWebhookUrlAllowed env parseUrl rawUrl) a ↔
      (Blocked a → env.allowPrivateWebhookUrls ≠ some "true" ∧ ¬ Missed a) := by
  rw [isWebhookUrlAllowed_host hparse hprotocol hhost]
  constructor
  · rintro ⟨hrefused, -⟩ hblocked
    obtain ⟨hallow, hprivate⟩ := Bool.or_eq_false_iff.mp (hrefused hblocked)
    have hprivate' : isPrivateIp a.text = true := by simpa using hprivate
    exact ⟨of_decide_eq_false hallow, (isPrivateIp_iff_of_blocked hblocked).mp hprivate'⟩
  · intro h
    refine ⟨fun hblocked => ?_, ?_⟩
    · obtain ⟨hallow, hmissed⟩ := h hblocked
      rw [decide_eq_false hallow, (isPrivateIp_iff_of_blocked hblocked).mpr hmissed]
      rfl
    · rintro v rfl hpublic
      have hprivate : isPrivateIp (Address.v4 v).text = false := by
        show isPrivateIp (dottedText v.value) = false
        rw [isPrivateIp_v4 v.value_lt]
        exact decide_eq_false hpublic
      rw [hprivate]
      simp

/-- A parser that knows one URL. -/
def parseOne (url : Url) : String → Option Url :=
  fun rawUrl => if rawUrl = url.href then some url else none

def metadataUrl : Url where
  href := "http://169.254.169.254/"
  protocol := "http:"
  hostname := "169.254.169.254"

def teredoUrl : Url where
  href := "http://[2001::1]/"
  protocol := "http:"
  hostname := "[2001::1]"

def noGuardSettings : GuardEnv where
  allowPrivateWebhookUrls := none
  webhookDnsCheck := none

theorem blocksAsMeant_iff_metadata :
    BlocksAsMeant
        (isWebhookUrlAllowed noGuardSettings (parseOne metadataUrl) "http://169.254.169.254/")
        (.v4 ⟨0xa9fea9fe, by decide⟩) ↔
      (Blocked (.v4 ⟨0xa9fea9fe, by decide⟩) →
        noGuardSettings.allowPrivateWebhookUrls ≠ some "true" ∧
          ¬ Missed (.v4 ⟨0xa9fea9fe, by decide⟩)) :=
  blocksAsMeant_iff noGuardSettings (parseOne metadataUrl) "http://169.254.169.254/" metadataUrl
    (.v4 ⟨0xa9fea9fe, by decide⟩) rfl (.inl rfl) (by decide)

/-- The address `2001::1` can tunnel, and a URL with it as the host is allowed. -/
theorem not_blocksAsMeant_teredo :
    parseOne teredoUrl "http://[2001::1]/" = some teredoUrl ∧
      teredoUrl.hostname =
        String.ofList (Address.host (.v6 ⟨0x20010000000000000000000000000001, by decide⟩)) ∧
      ¬ BlocksAsMeant (isWebhookUrlAllowed noGuardSettings (parseOne teredoUrl) "http://[2001::1]/")
        (.v6 ⟨0x20010000000000000000000000000001, by decide⟩) := by
  have hhost : teredoUrl.hostname =
      String.ofList (Address.host (.v6 ⟨0x20010000000000000000000000000001, by decide⟩)) := by
    decide
  have hmissed : Missed (.v6 ⟨0x20010000000000000000000000000001, by decide⟩) := by
    exact .inr (by decide)
  have hblocked : Blocked (.v6 ⟨0x20010000000000000000000000000001, by decide⟩) := by
    exact .inr (.inr (.inr (.inr (by decide))))
  refine ⟨rfl, hhost, fun h => ?_⟩
  have hrefused := h.1 hblocked
  rw [isWebhookUrlAllowed_host rfl (.inl rfl) hhost, Address.text, isPrivateIp_of_missed hmissed] at hrefused
  cases hrefused

end Literals

end BotHive.Webhooks
