import BotHive.Library.IpAddress
import Mathlib.Data.List.DropRight

/-!
# The guard of webhook URLs

A URL that the server is asked to call must not lead into its own network. The guard reads the
host of the URL as an address where it is the text of one and refuses private addresses; names
are resolved, and the addresses are checked in the same way.

Texts of hosts and addresses are read as the lists of their characters.
-/

namespace BotHive.Webhooks

/-- The settings of the process that the guard reads. -/
structure GuardEnv where
  allowPrivateWebhookUrls : Option String
  webhookDnsCheck : Option String
  deriving DecidableEq

/-- What the guard reads of a parsed URL. -/
structure Url where
  href : String
  protocol : String
  hostname : String
  deriving DecidableEq

def toLowerCase (l : List Char) : List Char :=
  l.map Char.toLower

section Addresses

def uint32ToIpv4 (value : ℕ) : List Char :=
  ['.'].intercalate
    ([(value >>> 24) &&& 0xff, (value >>> 16) &&& 0xff, (value >>> 8) &&& 0xff, value &&& 0xff].map
      (Nat.toDigits 10))

/-- One to three decimal digits. -/
def isDigits3 (l : List Char) : Bool :=
  l.all Char.isDigit && (1 ≤ l.length && l.length ≤ 3)

/-- One to four hexadecimal digits, in lower case. -/
def isHex4 (l : List Char) : Bool :=
  l.all isLowerHex && (1 ≤ l.length && l.length ≤ 4)

/-- The numbers of four fields of one to three digits with dots between them. -/
def quad? (l : List Char) : Option (List ℕ) :=
  match l.splitOn '.' with
  | [a, b, c, d] => if [a, b, c, d].all isDigits3 then some ([a, b, c, d].map parseDecimal) else none
  | _ => none

/-- Four numbers as the bytes of an address. -/
def joinOctets (octets : List ℕ) : Option (List Char) :=
  if octets.all (· ≤ 255) then some (['.'].intercalate (octets.map (Nat.toDigits 10))) else none

/-- The number of two fields of one to four hexadecimal digits. -/
def hexPair? (a b : List Char) : Option ℕ :=
  if isHex4 a && isHex4 b then
    some (((parseHex a &&& 0xffff) <<< 16) + (parseHex b &&& 0xffff))
  else none

/-- The IPv4 address that an IPv4-mapped or IPv4-compatible text embeds. -/
def ipv4FromMappedV6 (ip : List Char) : Option (List Char) :=
  match (toLowerCase ip).splitOn ':' with
  | [[], [], front, a, b] =>
    if front = "ffff".toList then (hexPair? a b).map uint32ToIpv4 else none
  | [[], [], a, b] =>
    match if a = "ffff".toList then quad? b else none with
    | some octets => joinOctets octets
    | none => (hexPair? a b).map uint32ToIpv4
  | [[], [], a] => (quad? a).bind joinOctets
  | _ => none

/-- The addresses that a host names in any notation of IPv4. -/
def toIpv4Candidates (host : List Char) : Option (List (List Char)) :=
  let lower := toLowerCase host
  let value :=
    if lower ≠ [] ∧ lower.all Char.isDigit then some (parseDecimal lower)
    else if "0x".toList.isPrefixOf lower ∧ lower.drop 2 ≠ [] ∧ (lower.drop 2).all isLowerHex then
      some (parseHex (lower.drop 2))
    else if '.' ∈ lower then
      let parts := lower.splitOn '.'
      if parts.length < 2 ∨ 4 < parts.length then none
      else if parts.all isDigits3 then
        let nums := parts.map parseDecimal
        if nums.any (255 < ·) then none else some (nums.foldl (fun v n => v * 256 + n) 0)
      else none
    else none
  value.bind fun v => if 0xffffffff < v then none else some [uint32ToIpv4 v]

/-- The decimal text of a byte, without leading zeros. -/
def isByte (l : List Char) : Bool :=
  parseDecimal l < 256 && l = Nat.toDigits 10 (parseDecimal l)

def isIPv4 (ip : List Char) : Bool :=
  match ip.splitOn '.' with
  | [a, b, c, d] => [a, b, c, d].all isByte
  | _ => false

def isZone (l : List Char) : Bool :=
  l ≠ [] && l.all fun c => c.isAlphanum || c == '-' || c == '.' || c == ':'

/-- How many pieces the fields of one side stand for; the last one may be an IPv4 address. -/
def pieceCount? (quadAllowed : Bool) (parts : List (List Char)) : Option ℕ :=
  if parts.all fun l => isHex4 (toLowerCase l) then some parts.length
  else if quadAllowed && (parts.dropLast.all (fun l => isHex4 (toLowerCase l)) &&
      (parts.getLast?.map isIPv4).getD false) then some (parts.length + 1)
  else none

/-- The same where an empty field stands for no piece. -/
def sideCount? (quadAllowed : Bool) (parts : List (List Char)) : Option ℕ :=
  if parts = [[]] then some 0 else if parts = [] then none else pieceCount? quadAllowed parts

/-- Eight pieces, or fewer around one empty field. -/
def areIPv6Fields (parts : List (List Char)) : Bool :=
  pieceCount? true parts = some 8 ||
    (List.range parts.length).any fun i =>
      match parts[i]?, sideCount? false (parts.take i), sideCount? true (parts.drop (i + 1)) with
      | some [], some m, some n => decide (m + n ≤ 7)
      | _, _, _ => false

/-- The fields of an address between colons, with an optional zone. -/
def isIPv6 (ip : List Char) : Bool :=
  let address := ip.takeWhile (· ≠ '%')
  (address = ip || isZone ((ip.dropWhile (· ≠ '%')).drop 1)) &&
    areIPv6Fields (address.splitOn ':')

/-- The version of the address that a text is, and 0 for other texts. -/
def isIP (ip : List Char) : ℕ :=
  if isIPv4 ip then 4 else if isIPv6 ip then 6 else 0

def isPrivateIpv4 (ip : List Char) : Bool :=
  match (ip.splitOn '.').map parseDecimal with
  | a :: b :: _ =>
    a = 0 || a = 10 || a = 127 || (a = 169 && b = 254) || (a = 172 && (16 ≤ b && b ≤ 31)) ||
      (a = 192 && b = 168) || (a = 100 && (64 ≤ b && b ≤ 127)) || 224 ≤ a
  | _ => false

def isLinkLocal : List Char → Bool
  | 'f' :: 'e' :: c :: _ => c ∈ ['8', '9', 'a', 'b']
  | _ => false

def isPrivateIp (ip : List Char) : Bool :=
  if ip = [] then false
  else if isIP ip = 4 then isPrivateIpv4 ip
  else if isIP ip = 6 then
    let lower := toLowerCase ip
    if lower = "::".toList ∨ lower = "::1".toList then true
    else
      match ipv4FromMappedV6 lower with
      -- an embedded address is dotted, so the call on it takes the branch of IPv4
      | some embedded => isIP embedded = 4 && isPrivateIpv4 embedded
      | none =>
        "fc".toList.isPrefixOf lower || "fd".toList.isPrefixOf lower || isLinkLocal lower ||
          "ff".toList.isPrefixOf lower || "2002:".toList.isPrefixOf lower ||
          "2001:0:".toList.isPrefixOf lower
  else false

end Addresses

section Hosts

/-- A host whose last label is the name of a private zone. -/
def isPrivateHostname (host : List Char) : Bool :=
  ["local", "internal", "home", "lan", "corp", "localhost"].any fun name =>
    toLowerCase host = name.toList || ('.' :: name.toList).isSuffixOf (toLowerCase host)

def normalizeHost (hostname : String) : List Char :=
  let lower := toLowerCase hostname.toList
  let unbracketed :=
    if lower.head? = some '[' ∧ lower.getLast? = some ']' then (lower.drop 1).dropLast else lower
  unbracketed.rdropWhile (· == '.')

/-- What the guard answers for a host of an http URL. -/
def isHostAllowed (host : List Char) : Bool :=
  if host = "localhost".toList ∨ isPrivateHostname host then false
  else
    match toIpv4Candidates host with
    | some ipv4 => ipv4.all fun ip => !isPrivateIp ip
    | none =>
      if isIP host = 6 then
        match ipv4FromMappedV6 host with
        | some embedded => !isPrivateIp embedded
        | none => !isPrivateIp host
      else true

variable (env : GuardEnv) (parseUrl : String → Option Url)

def isWebhookUrlAllowed (rawUrl : String) : Bool :=
  if env.allowPrivateWebhookUrls = some "true" then true
  else
    match parseUrl rawUrl with
    | none => false
    | some url =>
      if url.protocol ≠ "http:" ∧ url.protocol ≠ "https:" then false
      else isHostAllowed (normalizeHost url.hostname)

end Hosts

end BotHive.Webhooks
