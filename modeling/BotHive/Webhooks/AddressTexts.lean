import BotHive.Webhooks.UrlGuard

/-!
# The guard on the texts of addresses

What the guard computes on the canonical text of an address. The text has no character that
a name or another notation needs, so the guard reads it as the address that it is, and its
answer for the host of a URL is the one of `isPrivateIp`.

## Main results

- `isIP_dottedText`, `isIP_text`: the versions of the texts
- `isPrivateIp_embedded`: a text that embeds an IPv4 address is as private as that address
- `isHostAllowed_host`: the guard allows the host of an address exactly if it is not private
-/

namespace BotHive.Webhooks

/-- The characters of the texts of addresses. -/
def isAddressChar (c : Char) : Bool :=
  c = ':' || c = '.' || isLowerHex c

section Characters

theorem toLower_of_isAddressChar {c : Char} (h : isAddressChar c = true) : c.toLower = c := by
  refine dif_neg fun hupper => ?_
  simp only [isAddressChar, isLowerHex, Char.isDigit, Bool.or_eq_true, Bool.and_eq_true,
    decide_eq_true_eq] at h
  have hA : 'A'.val.toNat = 65 := rfl
  have hZ : 'Z'.val.toNat = 90 := rfl
  obtain (rfl | rfl) | h := h
  · exact absurd hupper (by decide)
  · exact absurd hupper (by decide)
  · simp only [Char.le_def, UInt32.le_iff_toNat_le, ge_iff_le] at h hupper
    have ha : 'a'.val.toNat = 97 := rfl
    have h9 : '9'.val.toNat = 57 := rfl
    omega

variable {l : List Char}

theorem toLowerCase_of_addressChars (h : ∀ c ∈ l, isAddressChar c = true) :
    toLowerCase l = l := by
  have hid : ∀ c ∈ l, c.toLower = id c := fun c hc => toLower_of_isAddressChar (h c hc)
  rw [toLowerCase, List.map_congr_left hid, List.map_id]

/-- No private zone has a name that is written with the characters of addresses. -/
theorem isPrivateHostname_of_addressChars (h : ∀ c ∈ l, isAddressChar c = true) :
    isPrivateHostname l = false := by
  have hnames : ∀ name ∈ ["local", "internal", "home", "lan", "corp", "localhost"],
      name.toList.any (fun c => !isAddressChar c) = true := by decide
  rw [isPrivateHostname, List.any_eq_false, toLowerCase_of_addressChars h]
  intro name hname hmatch
  obtain ⟨c, hc, hother⟩ := List.any_eq_true.mp (hnames name hname)
  have hmem : c ∈ l := by
    rcases Bool.or_eq_true_iff.mp hmatch with heq | hsuffix
    · rw [of_decide_eq_true heq]
      exact hc
    · exact (List.isSuffixOf_iff_suffix.mp hsuffix).subset (List.mem_cons_of_mem _ hc)
  rw [h c hmem] at hother
  exact Bool.noConfusion hother

theorem isAddressChar_of_mem_dottedText {value : ℕ} {c : Char} (h : c ∈ dottedText value) :
    isAddressChar c = true := by
  rcases mem_dottedText h with rfl | hdigit
  · rfl
  · simp [isAddressChar, isLowerHex, hdigit]

theorem isAddressChar_of_mem_text {a : Ipv6} {c : Char} (h : c ∈ a.text) :
    isAddressChar c = true := by
  rcases Ipv6.mem_text h with rfl | hhex
  · rfl
  · simp [isAddressChar, hhex]

end Characters

section Dotted

theorem uint32ToIpv4_eq (value : ℕ) : uint32ToIpv4 value = dottedText value := by
  have hmask : ∀ n : ℕ, n &&& 0xff = n % 256 := fun n => Nat.and_two_pow_sub_one_eq_mod n 8
  simp only [uint32ToIpv4, dottedText, octets, hmask, Nat.shiftRight_eq_div_pow]

theorem isByte_toDigits {n : ℕ} (h : n < 256) : isByte (Nat.toDigits 10 n) = true := by
  simp [isByte, parseDecimal_toDigits, h]

theorem isDigits3_toDigits {n : ℕ} (h : n < 256) : isDigits3 (Nat.toDigits 10 n) = true := by
  have hpos : 1 ≤ (Nat.toDigits 10 n).length := Nat.length_toDigits_pos
  have hall : (Nat.toDigits 10 n).all Char.isDigit = true :=
    List.all_eq_true.mpr fun c hc => isDigit_of_mem_toDigits_ten hc
  simp [isDigits3, hall, hpos, length_toDigits_ten h]

/-- Four bytes make an address. -/
theorem isIP_bytes {a b c d : ℕ} (h : ∀ n ∈ [a, b, c, d], n < 256) :
    isIP (['.'].intercalate ([a, b, c, d].map (Nat.toDigits 10))) = 4 := by
  have hsplit : (['.'].intercalate ([a, b, c, d].map (Nat.toDigits 10))).splitOn '.' =
      [a, b, c, d].map (Nat.toDigits 10) := by
    refine List.splitOn_intercalate '.' (fun l hl => ?_) (by simp)
    obtain ⟨n, -, rfl⟩ := List.mem_map.mp hl
    exact dot_not_mem_toDigits n
  have hbytes : ([a, b, c, d].map (Nat.toDigits 10)).all isByte = true := by
    rw [List.all_map, List.all_eq_true]
    exact fun n hn => isByte_toDigits (h n hn)
  have hipv4 : isIPv4 (['.'].intercalate ([a, b, c, d].map (Nat.toDigits 10))) = true := by
    rw [isIPv4, hsplit]
    exact hbytes
  rw [isIP, hipv4, if_pos rfl]

variable (value : ℕ)

theorem isIP_dottedText : isIP (dottedText value) = 4 :=
  isIP_bytes fun _ hn => octets_lt hn

theorem parseDecimal_octets :
    ((dottedText value).splitOn '.').map parseDecimal = octets value := by
  have hid : parseDecimal ∘ Nat.toDigits 10 = id := funext parseDecimal_toDigits
  rw [splitOn_dottedText, List.map_map, hid, List.map_id]

theorem dot_mem_dottedText : '.' ∈ dottedText value := by
  simp [dottedText, octets, List.intercalate_cons_cons]

/-- The notations of IPv4 give the address of a dotted text back. -/
theorem toIpv4Candidates_dottedText (h : value < 2 ^ 32) :
    toIpv4Candidates (dottedText value) = some [dottedText value] := by
  have hlower : toLowerCase (dottedText value) = dottedText value :=
    toLowerCase_of_addressChars fun c hc => isAddressChar_of_mem_dottedText hc
  have hdigits : ¬ (dottedText value).all Char.isDigit = true := by
    intro hall
    cases List.all_eq_true.mp hall '.' (dot_mem_dottedText value)
  have hhex : ¬ "0x".toList.isPrefixOf (dottedText value) = true := by
    intro hx
    have hmem : 'x' ∈ dottedText value :=
      (List.isPrefixOf_iff_prefix.mp hx).subset (List.mem_cons_of_mem _ List.mem_cons_self)
    cases isAddressChar_of_mem_dottedText hmem
  have hthree : ((dottedText value).splitOn '.').all isDigits3 = true := by
    rw [splitOn_dottedText, List.all_eq_true]
    intro l hl
    obtain ⟨n, hn, rfl⟩ := List.mem_map.mp hl
    exact isDigits3_toDigits (octets_lt hn)
  have hlength : ((dottedText value).splitOn '.').length = 4 := by
    rw [splitOn_dottedText]
    rfl
  have hbytes : ((octets value).any (255 < ·)) = false := by
    rw [List.any_eq_false]
    intro n hn
    have hlt := octets_lt hn
    simp only [decide_eq_true_eq]
    omega
  have hvalue : (octets value).foldl (fun v n => v * 256 + n) 0 = value := by
    simp only [octets, List.foldl_cons, List.foldl_nil]
    omega
  have hmax : ¬ 0xffffffff < value := by omega
  simp only [toIpv4Candidates, hlower, hdigits, hhex, dot_mem_dottedText, hthree, hlength,
    parseDecimal_octets, hbytes, hvalue, if_true]
  simp [hmax, uint32ToIpv4_eq]

theorem normalizeHost_of_addressChars {l : List Char} (h : ∀ c ∈ l, isAddressChar c = true)
    (hlast : ∀ hl : l ≠ [], l.getLast hl ≠ '.') : normalizeHost (String.ofList l) = l := by
  have hhead : ¬ (l.head? = some '[' ∧ l.getLast? = some ']') := by
    rintro ⟨hopen, -⟩
    cases h '[' (List.mem_of_mem_head? hopen)
  rw [normalizeHost, String.toList_ofList, toLowerCase_of_addressChars h]
  simp only [if_neg hhead]
  refine List.rdropWhile_eq_self_iff.mpr fun hl hdot => hlast hl ?_
  exact beq_iff_eq.mp hdot

theorem getLast_dottedText (h : dottedText value ≠ []) : (dottedText value).getLast h ≠ '.' := by
  have hne : Nat.toDigits 10 (value % 256) ≠ [] := Nat.toDigits_ne_nil
  have hlast : (dottedText value).getLast h = (Nat.toDigits 10 (value % 256)).getLast hne := by
    simp only [dottedText, octets, List.map_cons, List.map_nil, List.intercalate_cons_cons,
      List.intercalate_singleton]
    have hlow (l : List Char) : l ++ Nat.toDigits 10 (value % 256) ≠ [] :=
      List.append_ne_nil_of_right_ne_nil l hne
    rw [List.getLast_append_of_ne_nil _ (List.append_ne_nil_of_right_ne_nil _ (hlow _)),
      List.getLast_append_of_ne_nil _ (hlow _), List.getLast_append_of_ne_nil _ hne]
  intro hdot
  rw [hlast] at hdot
  have hmem : '.' ∈ Nat.toDigits 10 (value % 256) := hdot ▸ List.getLast_mem hne
  exact dot_not_mem_toDigits _ hmem

theorem normalizeHost_dottedText :
    normalizeHost (String.ofList (dottedText value)) = dottedText value :=
  normalizeHost_of_addressChars (fun _ hc => isAddressChar_of_mem_dottedText hc)
    (getLast_dottedText value)

end Dotted

section Embedded

variable {ip embedded : List Char}

theorem isIP_hexPair {a b : List Char} (h : (hexPair? a b).map uint32ToIpv4 = some embedded) :
    isIP embedded = 4 := by
  obtain ⟨value, -, rfl⟩ := Option.map_eq_some_iff.mp h
  rw [uint32ToIpv4_eq]
  exact isIP_dottedText value

theorem isIP_joinOctets {l : List Char} {octets : List ℕ} (hquad : quad? l = some octets)
    (h : joinOctets octets = some embedded) : isIP embedded = 4 := by
  obtain ⟨a, b, c, d, rfl⟩ : ∃ a b c d, octets = [a, b, c, d] := by
    revert hquad
    unfold quad?
    split
    · split_ifs
      · rintro ⟨⟩
        exact ⟨_, _, _, _, rfl⟩
      · exact nofun
    · exact nofun
  rw [joinOctets] at h
  split_ifs at h with hle
  cases h
  refine isIP_bytes fun n hn => ?_
  have hn' := List.all_eq_true.mp hle n hn
  exact Nat.lt_succ_of_le (of_decide_eq_true hn')

/-- What an IPv6 text embeds is a dotted address. -/
theorem isIP_ipv4FromMappedV6 (h : ipv4FromMappedV6 ip = some embedded) : isIP embedded = 4 := by
  unfold ipv4FromMappedV6 at h
  split at h
  · split_ifs at h
    exact isIP_hexPair h
  · split at h
    · rename_i hquad
      split_ifs at hquad
      exact isIP_joinOctets hquad h
    · exact isIP_hexPair h
  · obtain ⟨octets, hquad, hjoin⟩ := Option.bind_eq_some_iff.mp h
    exact isIP_joinOctets hquad hjoin
  · cases h

theorem isPrivateIp_of_isIP_four (h : isIP ip = 4) : isPrivateIp ip = isPrivateIpv4 ip := by
  have hne : ip ≠ [] := by
    rintro rfl
    cases h
  rw [isPrivateIp, if_neg hne, h, if_pos rfl]

/-- A text that embeds an address is as private as that address. -/
theorem isPrivateIp_embedded (hip : isIP ip = 6) (hlower : toLowerCase ip = ip)
    (h : ipv4FromMappedV6 ip = some embedded) : isPrivateIp ip = isPrivateIp embedded := by
  have hembedded := isIP_ipv4FromMappedV6 h
  have hne : ip ≠ [] := by
    rintro rfl
    cases hip
  have hspecial : ¬ (ip = "::".toList ∨ ip = "::1".toList) := by
    rintro (rfl | rfl) <;> cases h
  rw [isPrivateIp_of_isIP_four hembedded, isPrivateIp, if_neg hne, hip]
  simp only [hlower, if_neg hspecial, h, hembedded]
  simp

end Embedded

section Fields

theorem isHex4_toDigits {n : ℕ} (h : n < 2 ^ 16) :
    isHex4 (toLowerCase (Nat.toDigits 16 n)) = true := by
  have hlower : toLowerCase (Nat.toDigits 16 n) = Nat.toDigits 16 n := by
    refine toLowerCase_of_addressChars fun c hc => ?_
    simp [isAddressChar, isLowerHex_of_mem_toDigits hc]
  have hpos : 1 ≤ (Nat.toDigits 16 n).length := Nat.length_toDigits_pos
  have hall : (Nat.toDigits 16 n).all isLowerHex = true :=
    List.all_eq_true.mpr fun c hc => isLowerHex_of_mem_toDigits hc
  simp [isHex4, hlower, hall, hpos, length_toDigits_sixteen h]

variable {l : List ℕ}

theorem pieceCount?_map (h : ∀ n ∈ l, n < 2 ^ 16) (quadAllowed : Bool) :
    pieceCount? quadAllowed (l.map (Nat.toDigits 16)) = some l.length := by
  have hall : (l.map (Nat.toDigits 16)).all (fun f => isHex4 (toLowerCase f)) = true := by
    rw [List.all_map, List.all_eq_true]
    exact fun n hn => isHex4_toDigits (h n hn)
  rw [pieceCount?, if_pos hall, List.length_map]

theorem sideCount?_sideFields (h : ∀ n ∈ l, n < 2 ^ 16) (quadAllowed : Bool) :
    sideCount? quadAllowed (sideFields l) = some l.length := by
  cases l with
  | nil => rfl
  | cons n rest =>
    have hne : (n :: rest).map (Nat.toDigits 16) ≠ [[]] := by
      rw [List.map_cons]
      intro hempty
      exact Nat.toDigits_ne_nil (List.cons_eq_cons.mp hempty).1
    rw [sideFields, if_neg (List.cons_ne_nil n rest), sideCount?, if_neg hne,
      if_neg (by simp), pieceCount?_map h]

/-- The fields of a canonical text are accepted as those of an address. -/
theorem areIPv6Fields_fields (hlen : l.length = 8) (h : ∀ n ∈ l, n < 2 ^ 16) :
    areIPv6Fields (fields l) = true := by
  cases hzero : compressed? l with
  | none =>
    have hfields : fields l = l.map (Nat.toDigits 16) := by rw [fields, hzero]
    rw [areIPv6Fields, hfields, pieceCount?_map h, hlen]
    rfl
  | some i =>
    -- the empty field stands after the fields of the pieces before the zeros
    have hrun := two_le_zeroRun hzero
    have hle := zeroRun_le_length (l.drop i)
    rw [List.length_drop] at hle
    obtain ⟨left, hleft⟩ : ∃ left, left = sideFields (l.take i) := ⟨_, rfl⟩
    obtain ⟨right, hright⟩ : ∃ right, right = sideFields (l.drop (i + zeroRun (l.drop i))) :=
      ⟨_, rfl⟩
    have hfields : fields l = left ++ [] :: right := by rw [fields, hzero, hleft, hright]
    have hm : sideCount? false left = some (l.take i).length := by
      rw [hleft]
      exact sideCount?_sideFields (fun n hn => h n (List.mem_of_mem_take hn)) false
    have hn : sideCount? true right = some (l.drop (i + zeroRun (l.drop i))).length := by
      rw [hright]
      exact sideCount?_sideFields (fun n hn => h n (List.mem_of_mem_drop hn)) true
    have hsum : (l.take i).length + (l.drop (i + zeroRun (l.drop i))).length ≤ 7 := by
      rw [List.length_take, List.length_drop]
      omega
    have hmem : left.length ∈ List.range (left ++ [] :: right).length := by simp
    rw [areIPv6Fields, hfields, Bool.or_eq_true_iff, List.any_eq_true]
    refine .inr ⟨left.length, hmem, ?_⟩
    have htake : (left ++ [] :: right).take left.length = left := List.take_left
    have hdrop : (left ++ [] :: right).drop (left.length + 1) = right := by simp
    have hempty : (left ++ [] :: right)[left.length]? = some [] := by simp
    simp only [htake, hdrop, hempty, hm, hn]
    exact decide_eq_true hsum

end Fields

section Canonical

variable (a : Ipv6)

theorem toLowerCase_text : toLowerCase a.text = a.text :=
  toLowerCase_of_addressChars fun _ hc => isAddressChar_of_mem_text hc

theorem not_mem_text {c : Char} (hcolon : c ≠ ':') (hhex : isLowerHex c = false) :
    c ∉ a.text := by
  intro h
  rcases Ipv6.mem_text h with rfl | hc
  · exact hcolon rfl
  · rw [hhex] at hc
    cases hc

theorem isIPv4_text : isIPv4 a.text = false := by
  rw [isIPv4, List.splitOn_eq_singleton (not_mem_text a (by decide) rfl)]

theorem areIPv6Fields_splitOn_text : areIPv6Fields (a.text.splitOn ':') = true := by
  rw [a.splitOn_text]
  exact areIPv6Fields_fields rfl fun _ hn => pieces_lt hn

theorem isIPv6_text : isIPv6 a.text = true := by
  have haddress : a.text.takeWhile (· ≠ '%') = a.text := by
    rw [List.takeWhile_eq_self_iff]
    intro c hc
    have hne : c ≠ '%' := by
      rintro rfl
      exact not_mem_text a (by decide) rfl hc
    simpa using hne
  simp only [isIPv6, haddress, areIPv6Fields_splitOn_text]
  simp

theorem isIP_text : isIP a.text = 6 := by
  rw [isIP, isIPv4_text, isIPv6_text]
  rfl

theorem colon_mem_text : ':' ∈ a.text := by
  by_contra h
  have haccepted := areIPv6Fields_splitOn_text a
  rw [List.splitOn_eq_singleton h] at haccepted
  revert haccepted
  simp [areIPv6Fields, pieceCount?, sideCount?, isIPv4_text]

theorem toIpv4Candidates_text : toIpv4Candidates a.text = none := by
  have hdigits : ¬ a.text.all Char.isDigit = true := by
    intro hall
    cases List.all_eq_true.mp hall ':' (colon_mem_text a)
  have hhex : ¬ "0x".toList.isPrefixOf a.text = true := by
    intro hx
    have hmem : 'x' ∈ a.text :=
      (List.isPrefixOf_iff_prefix.mp hx).subset (List.mem_cons_of_mem _ List.mem_cons_self)
    exact not_mem_text a (by decide) rfl hmem
  have hdot : '.' ∉ a.text := not_mem_text a (by decide) rfl
  simp only [toIpv4Candidates, toLowerCase_text, hdigits, hhex, hdot, if_false]
  simp

theorem normalizeHost_bracketed : normalizeHost (String.ofList ('[' :: a.text ++ [']'])) = a.text := by
  have hlower : toLowerCase ('[' :: a.text ++ [']']) = '[' :: a.text ++ [']'] := by
    have htext := toLowerCase_text a
    simp only [toLowerCase, List.cons_append, List.map_cons, List.map_append, List.map_nil] at htext ⊢
    rw [htext]
    rfl
  rw [normalizeHost, String.toList_ofList, hlower]
  have hdrop : ('[' :: a.text ++ [']']).drop 1 = a.text ++ [']'] := rfl
  have hlast : ('[' :: a.text ++ [']']).getLast? = some ']' := List.getLast?_concat
  simp only [hdrop, List.dropLast_concat]
  rw [if_pos ⟨rfl, hlast⟩]
  refine List.rdropWhile_eq_self_iff.mpr fun hne hdot => ?_
  have hmem : '.' ∈ a.text := beq_iff_eq.mp hdot ▸ List.getLast_mem hne
  exact not_mem_text a (by decide) rfl hmem

end Canonical

section Hosts

theorem not_localhost {l : List Char} (h : ∀ c ∈ l, isAddressChar c = true) :
    ¬ (l = "localhost".toList ∨ isPrivateHostname l = true) := by
  rw [isPrivateHostname_of_addressChars h]
  rintro (rfl | hfalse)
  · cases h 'l' List.mem_cons_self
  · cases hfalse

/-- The guard answers for the host of an address what `isPrivateIp` says about the address. -/
theorem isHostAllowed_host (a : Address) :
    isHostAllowed (normalizeHost (String.ofList a.host)) = !isPrivateIp a.text := by
  cases a with
  | v4 a =>
    show isHostAllowed (normalizeHost (String.ofList (dottedText a.value))) =
      !isPrivateIp (dottedText a.value)
    have hchars : ∀ c ∈ dottedText a.value, isAddressChar c = true :=
      fun c hc => isAddressChar_of_mem_dottedText hc
    rw [normalizeHost_dottedText, isHostAllowed, if_neg (not_localhost hchars),
      toIpv4Candidates_dottedText a.value a.value_lt]
    simp
  | v6 a =>
    show isHostAllowed (normalizeHost (String.ofList ('[' :: a.text ++ [']']))) =
      !isPrivateIp a.text
    have hchars : ∀ c ∈ a.text, isAddressChar c = true := fun c hc => isAddressChar_of_mem_text hc
    rw [normalizeHost_bracketed, isHostAllowed, if_neg (not_localhost hchars),
      toIpv4Candidates_text, isIP_text]
    cases hembedded : ipv4FromMappedV6 a.text with
    | none => rfl
    | some embedded =>
      rw [isPrivateIp_embedded (isIP_text a) (toLowerCase_text a) hembedded]
      rfl

end Hosts

end BotHive.Webhooks
