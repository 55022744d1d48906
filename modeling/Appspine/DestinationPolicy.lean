import Appspine.AddressBlocks
import Appspine.IpText
import Appspine.Results

/-!
# Destinations that may be called

`resolveSafeDestination` of the integration contracts with its filter of addresses. The parsing
of the URL, the resolution of the host and `toLowerCase` are parameters.
-/
namespace Appspine.DestinationPolicy
open JsText IpText AddressBlocks Results

section Numbers

/-- `parseInt(text, 16)`, absent where that is no number. -/
def parseInt16 (text : JsString) : Option ℤ :=
  let trimmed := text.dropWhile isWhiteSpace
  let negative := trimmed.head? = some (unit '-')
  let unsigned := if negative ∨ trimmed.head? = some (unit '+') then trimmed.tail else trimmed
  let body := if startsWith unsigned (js "0x") ∨ startsWith unsigned (js "0X") then
    unsigned.drop 2 else unsigned
  (digits 16 (body.takeWhile fun u => (digitValue u).any fun d => decide (d < 16))).map
    fun n : ℕ => if negative then -(n : ℤ) else (n : ℤ)

def hexDigit (n : ℕ) : CodeUnit := Fin.ofNat 65536 (if n < 10 then 48 + n else 87 + n)

/-- `n.toString(16)`. -/
def toHex (n : ℕ) : JsString :=
  if n = 0 then [hexDigit 0] else (Nat.digits 16 n).reverse.map hexDigit

end Numbers

section Filter

def isLineTerminator (u : CodeUnit) : Bool :=
  decide (u.val = 0xA ∨ u.val = 0xD ∨ u.val = 0x2028 ∨ u.val = 0x2029)

/-- The groups of `/^(.*:)(\d+\.\d+\.\d+\.\d+)$/u`, the second as its numbers. -/
def dottedTail (text : JsString) : Option (JsString × ℕ × ℕ × ℕ × ℕ) :=
  let tail := afterLast colon text
  let head := text.take (text.length - tail.length)
  if colon ∈ text ∧ ¬ head.any isLineTerminator then
    match tail.splitOn dot with
    | [p, q, r, s] => do
      let a ← digits 10 p
      let b ← digits 10 q
      let c ← digits 10 r
      let d ← digits 10 s
      some (head, a, b, c, d)
    | _ => none
  else none

def parse (part : JsString) : List (Option ℤ) :=
  if part = [] then [] else (part.splitOn colon).map parseInt16

/-- The groups, when each of them is one of 16 bits. -/
def validGroups (groups : List (Option ℤ)) : Option (List ℕ) :=
  groups.mapM fun group => group.bind fun n => if 0 ≤ n ∧ n ≤ 0xffff then some n.toNat else none

/-- `expandIpv6` after the dotted form is folded and the zone dropped. -/
def expandGroups (text : JsString) : Except JsString (Option (List ℕ)) :=
  let checked (groups : List (Option ℤ)) :=
    if groups.length ≠ 8 then none else validGroups groups
  match breakOn (js "::") text with
  | (left, none) => .ok (checked (parse left))
  | (left, some rest) =>
    match breakOn (js "::") rest with
    | (_, some _) => .ok none
    | (right, none) =>
      let head := parse left
      let tail := parse right
      if 8 < head.length + tail.length then .error (js "Invalid array length")
      else .ok (checked
        (head ++ List.replicate (8 - (head.length + tail.length)) (some 0) ++ tail))

def expandIpv6 (value : JsString) : Except JsString (Option (List ℕ)) :=
  match dottedTail value with
  | none => expandGroups (bodyOf value)
  | some (head, a, b, c, d) =>
    if 255 < a ∨ 255 < b ∨ 255 < c ∨ 255 < d then .ok none
    else
      let high := a <<< 8 ||| b
      let low := c <<< 8 ||| d
      expandGroups (bodyOf (head ++ toHex high ++ colon :: toHex low))

def isBlockedIpv4Value (value : ℕ) : Bool :=
  let a := value >>> 24 &&& 0xff
  let b := value >>> 16 &&& 0xff
  let inRange (start stop : ℕ) := decide (start ≤ value ∧ value ≤ stop)
  decide (a = 0) || decide (a = 10) || decide (a = 127) || decide (a = 169 ∧ b = 254) ||
    decide (a = 100 ∧ b ≥ 64 ∧ b ≤ 127) || decide (a = 172 ∧ b ≥ 16 ∧ b ≤ 31) ||
    decide (a = 192 ∧ b = 168) || inRange 0xc0000000 0xc00000ff ||
    inRange 0xc0000200 0xc00002ff || inRange 0xc0586300 0xc05863ff ||
    inRange 0xc6120000 0xc613ffff || inRange 0xc6336400 0xc63364ff ||
    inRange 0xcb007100 0xcb0071ff || decide (a ≥ 224)

def embeddedIpv4 (groups : List ℕ) : ℕ := groups.getD 6 0 * 65536 + groups.getD 7 0

/-- What `isBlockedAddress` says of eight groups. -/
def isBlockedGroups (groups : List ℕ) : Bool :=
  let first5AllZero := (groups.take 5).all fun group => decide (group = 0)
  if first5AllZero ∧ groups.getD 5 0 = 0xffff then isBlockedIpv4Value (embeddedIpv4 groups)
  else if first5AllZero ∧ groups.getD 5 0 = 0 then
    decide (embeddedIpv4 groups ≤ 1) || isBlockedIpv4Value (embeddedIpv4 groups)
  else
    let head := groups.getD 0 0
    let second := groups.getD 1 0
    if head = 0x0064 ∧ second = 0xff9b then true
    else decide (head &&& 0xfe00 = 0xfc00) || decide (head &&& 0xffc0 = 0xfe80) ||
      decide (head &&& 0xff00 = 0xff00) || decide (head = 0x2002) ||
      decide (head = 0x2001 ∧ second = 0x0000) || decide (head = 0x2001 ∧ second = 0x0db8)

/-- `replace(/^\[|\]$/gu, '')`. -/
def withoutBrackets (text : JsString) : JsString :=
  let opened := if text.head? = some (unit '[') then text.tail else text
  if opened.getLast? = some (unit ']') then opened.dropLast else opened

variable (toLowerCase : JsString → JsString)

def normalized (address : JsString) : JsString := withoutBrackets (toLowerCase address)

def isBlockedAddress (address : JsString) : Except JsString Bool :=
  let text := normalized toLowerCase address
  if isIP text = 4 then
    match (text.splitOn dot).map (digits 10) with
    | [some a, some b, some c, some d] =>
      .ok (isBlockedIpv4Value (((a * 256 + b) * 256 + c) * 256 + d))
    | _ => .ok true
  else if isIP text = 6 then
    match expandIpv6 text with
    | .error error => .error error
    | .ok none => .ok true
    | .ok (some groups) => .ok (isBlockedGroups groups)
  else .ok true

end Filter

section Destination

/-- What is read of `new URL(text)`. -/
structure Url where
  protocol : JsString
  hostname : JsString
  username : JsString
  password : JsString
  deriving DecidableEq

structure DestinationPolicyOptions where
  production : Bool := false
  allowedHosts : Option (List JsString) := none
  resolve : Option (JsString → Except JsString (List JsString)) := none

structure SafeDestination where
  url : Url
  addresses : List JsString
  deriving DecidableEq

/-- `replace(/\.$/u, '')`. -/
def withoutDot (host : JsString) : JsString :=
  if host.getLast? = some dot then host.dropLast else host

variable (toLowerCase : JsString → JsString) (parseUrl : JsString → Except JsString Url)
  (lookup : JsString → Except JsString (List JsString))

def normalizeHost (value : JsString) : JsString := withoutDot (withoutBrackets (toLowerCase value))

def parseDestinationUrl (value : JsString) : Except JsString Url := do
  let url ← parseUrl value
  if url.protocol ≠ js "http:" ∧ url.protocol ≠ js "https:" then
    .error (js "Destination URL must use HTTP or HTTPS")
  else if url.hostname = [] then .error (js "Destination URL must include a hostname")
  else .ok url

/-- The loop over the addresses, up to the first that is blocked. -/
def assertNoneBlocked : List JsString → Except JsString Unit
  | [] => .ok ()
  | address :: rest => do
    if ← isBlockedAddress toLowerCase address then
      .error (js "Destination resolves to a blocked address: " ++ address)
    else assertNoneBlocked rest

def resolveSafeDestination (urlValue : JsString) (options : DestinationPolicyOptions) :
    Except JsString SafeDestination := do
  let url ← parseDestinationUrl parseUrl urlValue
  let host := withoutDot (toLowerCase url.hostname)
  if options.production ∧ options.allowedHosts.getD [] = [] then
    .error (js "Production webhook destinations require an explicit host allowlist")
  else if options.allowedHosts.any fun hosts =>
      !hosts.any fun allowed => decide (normalizeHost toLowerCase allowed = host) then
    .error (js "Destination host is not allowlisted: " ++ host)
  else if options.production ∧ url.protocol ≠ js "https:" then
    .error (js "Production webhook destinations must use HTTPS")
  else if url.username ≠ [] ∨ url.password ≠ [] then
    .error (js "Destination URL must not contain credentials")
  else
    let addresses ← if isIP host ≠ 0 then .ok [host] else (options.resolve.getD lookup) host
    if addresses = [] then .error (js "Destination host did not resolve: " ++ host)
    else
      assertNoneBlocked toLowerCase addresses
      .ok ⟨url, addresses⟩

def assertSafeDestination (urlValue : JsString) (options : DestinationPolicyOptions) :
    Except JsString Url :=
  (resolveSafeDestination toLowerCase parseUrl lookup urlValue options).map (·.url)

end Destination

section Ranges

/-- The IPv4 address of four octets. -/
def ipv4 (a b c d : ℕ) : ℕ := ((a * 256 + b) * 256 + c) * 256 + d

/-- The list of IPv4 blocks that are not to be called. -/
def blockedIpv4 : List (Block 32) :=
  [⟨ipv4 0 0 0 0, 8⟩, ⟨ipv4 10 0 0 0, 8⟩, ⟨ipv4 127 0 0 0, 8⟩, ⟨ipv4 169 254 0 0, 16⟩,
    ⟨ipv4 100 64 0 0, 10⟩, ⟨ipv4 172 16 0 0, 12⟩, ⟨ipv4 192 168 0 0, 16⟩, ⟨ipv4 192 0 0 0, 24⟩,
    ⟨ipv4 192 0 2 0, 24⟩, ⟨ipv4 192 88 99 0, 24⟩, ⟨ipv4 198 18 0 0, 15⟩,
    ⟨ipv4 198 51 100 0, 24⟩, ⟨ipv4 203 0 113 0, 24⟩, ⟨ipv4 224 0 0 0, 4⟩, ⟨ipv4 240 0 0 0, 4⟩]

def ListedIpv4 (value : ℕ) : Prop := ∃ block ∈ blockedIpv4, block.Contains value

/-- The 128 bits of eight groups. -/
def ipv6Value (groups : List ℕ) : ℕ := groups.foldl (fun value group => value * 65536 + group) 0

/-- `::`, `::1`, `fc00::/7`, `fe80::/10`, `ff00::/8`, `2002::/16`, `2001::/32`, `2001:db8::/32`
and `64:ff9b::/32`. -/
def blockedIpv6 : List (Block 128) :=
  [⟨ipv6Value [0, 0, 0, 0, 0, 0, 0, 0], 128⟩, ⟨ipv6Value [0, 0, 0, 0, 0, 0, 0, 1], 128⟩,
    ⟨ipv6Value [0xfc00, 0, 0, 0, 0, 0, 0, 0], 7⟩, ⟨ipv6Value [0xfe80, 0, 0, 0, 0, 0, 0, 0], 10⟩,
    ⟨ipv6Value [0xff00, 0, 0, 0, 0, 0, 0, 0], 8⟩, ⟨ipv6Value [0x2002, 0, 0, 0, 0, 0, 0, 0], 16⟩,
    ⟨ipv6Value [0x2001, 0, 0, 0, 0, 0, 0, 0], 32⟩,
    ⟨ipv6Value [0x2001, 0xdb8, 0, 0, 0, 0, 0, 0], 32⟩,
    ⟨ipv6Value [0x64, 0xff9b, 0, 0, 0, 0, 0, 0], 32⟩]

/-- The address lies in a listed range: a block, or for IPv6 also the IPv4-compatible or the
IPv4-mapped form of a blocked IPv4 address. -/
def Listed : Address → Prop
  | .v4 value => ListedIpv4 value
  | .v6 groups => (∃ block ∈ blockedIpv6, block.Contains (ipv6Value groups)) ∨
    ∃ value < 2 ^ 32, ListedIpv4 value ∧
      (ipv6Value groups = value ∨ ipv6Value groups = 0xffff * 2 ^ 32 + value)

lemma isBlockedIpv4Value_iff {value : ℕ} (h : value < 2 ^ 32) :
    isBlockedIpv4Value value = true ↔ ListedIpv4 value := by
  simp only [isBlockedIpv4Value, octet_eq, ListedIpv4, blockedIpv4, List.exists_mem_cons_iff,
    List.not_mem_nil, false_and, exists_false, or_false, Block.Contains, ipv4, Bool.or_eq_true,
    decide_eq_true_eq]
  norm_num
  omega

/-- The listed IPv6 blocks that the first two groups tell. -/
def HeadListed (head second : ℕ) : Prop :=
  (head = 0x64 ∧ second = 0xff9b) ∨ head / 512 = 126 ∨ head / 64 = 1018 ∨ head / 256 = 255 ∨
    head = 0x2002 ∨ (head = 0x2001 ∧ second = 0) ∨ (head = 0x2001 ∧ second = 0xdb8)

/-- The address ends in an IPv4 address that is blocked, or is `::` or `::1`. -/
def EndListed (fifth embedded : ℕ) : Prop :=
  (fifth = 0xffff ∧ ListedIpv4 embedded) ∨
    (fifth = 0 ∧ (embedded ≤ 1 ∨ ListedIpv4 embedded))

/-- The first two groups and the rest of the address. -/
lemma ipv6Value_split {g₀ g₁ g₂ g₃ g₄ g₅ g₆ g₇ : ℕ} (h₂ : g₂ < 65536) (h₃ : g₃ < 65536)
    (h₄ : g₄ < 65536) (h₅ : g₅ < 65536) (h₆ : g₆ < 65536) (h₇ : g₇ < 65536) :
    ∃ low < 2 ^ 96, ipv6Value [g₀, g₁, g₂, g₃, g₄, g₅, g₆, g₇] =
      (g₀ * 65536 + g₁) * 2 ^ 96 + low := by
  refine ⟨ipv6Value [0, 0, g₂, g₃, g₄, g₅, g₆, g₇], ?_, ?_⟩
  · norm_num [ipv6Value]
    omega
  · norm_num [ipv6Value]
    ring

lemma contains_head {a b n g₀ g₁ g₂ g₃ g₄ g₅ g₆ g₇ : ℕ} (hn : n ≤ 32) (h₂ : g₂ < 65536)
    (h₃ : g₃ < 65536) (h₄ : g₄ < 65536) (h₅ : g₅ < 65536) (h₆ : g₆ < 65536) (h₇ : g₇ < 65536) :
    (⟨ipv6Value [a, b, 0, 0, 0, 0, 0, 0], n⟩ : Block 128).Contains
        (ipv6Value [g₀, g₁, g₂, g₃, g₄, g₅, g₆, g₇]) ↔
      (g₀ * 65536 + g₁) / 2 ^ (32 - n) = (a * 65536 + b) / 2 ^ (32 - n) := by
  obtain ⟨low, hlow, hsplit⟩ := @ipv6Value_split g₀ g₁ _ _ _ _ _ _ h₂ h₃ h₄ h₅ h₆ h₇
  have hwidth : 128 - n = 96 + (32 - n) := by omega
  have hbase : ipv6Value [a, b, 0, 0, 0, 0, 0, 0] = (a * 65536 + b) * 2 ^ 96 := by
    norm_num [ipv6Value]
    ring
  rw [hsplit]
  exact Block.contains_iff_head hwidth hbase hlow

/-- An address that ends in 32 bits after a group and zeros. -/
lemma groups_of_value {g₀ g₁ g₂ g₃ g₄ g₅ g₆ g₇ fifth value : ℕ} (h₅ : g₅ < 65536)
    (h₆ : g₆ < 65536) (h₇ : g₇ < 65536) (hfifth : fifth < 65536) (hvalue : value < 2 ^ 32)
    (h : ipv6Value [g₀, g₁, g₂, g₃, g₄, g₅, g₆, g₇] = fifth * 2 ^ 32 + value) :
    g₀ = 0 ∧ g₁ = 0 ∧ g₂ = 0 ∧ g₃ = 0 ∧ g₄ = 0 ∧ g₅ = fifth ∧ g₆ * 65536 + g₇ = value := by
  norm_num [ipv6Value] at h hvalue
  omega

lemma listed_of_block {g₀ g₁ g₂ g₃ g₄ g₅ g₆ g₇ : ℕ} (h₁ : g₁ < 65536) (h₂ : g₂ < 65536)
    (h₃ : g₃ < 65536) (h₄ : g₄ < 65536) (h₅ : g₅ < 65536) (h₆ : g₆ < 65536) (h₇ : g₇ < 65536)
    {block : Block 128} (hblock : block ∈ blockedIpv6)
    (hcontains : block.Contains (ipv6Value [g₀, g₁, g₂, g₃, g₄, g₅, g₆, g₇])) :
    HeadListed g₀ g₁ ∨ (g₀ = 0 ∧ g₁ = 0 ∧ g₂ = 0 ∧ g₃ = 0 ∧ g₄ = 0 ∧
      EndListed g₅ (g₆ * 65536 + g₇)) := by
  have hsingle : ∀ value ≤ 1, ipv6Value [g₀, g₁, g₂, g₃, g₄, g₅, g₆, g₇] = value →
      g₀ = 0 ∧ g₁ = 0 ∧ g₂ = 0 ∧ g₃ = 0 ∧ g₄ = 0 ∧ EndListed g₅ (g₆ * 65536 + g₇) := by
    intro value hle hvalue
    have hvalue' : ipv6Value [g₀, g₁, g₂, g₃, g₄, g₅, g₆, g₇] = 0 * 2 ^ 32 + value := by
      rw [hvalue]
      ring
    obtain ⟨hg₀, hg₁, hg₂, hg₃, hg₄, hg₅, hend⟩ :=
      groups_of_value h₅ h₆ h₇ (by norm_num) (by omega) hvalue'
    exact ⟨hg₀, hg₁, hg₂, hg₃, hg₄, .inr ⟨hg₅, .inl (hend ▸ hle)⟩⟩
  simp only [blockedIpv6, List.mem_cons, List.not_mem_nil, or_false] at hblock
  rcases hblock with rfl | rfl | hblock
  · exact .inr (hsingle 0 (by norm_num) (by simpa [Block.Contains, ipv6Value] using hcontains))
  · exact .inr (hsingle 1 (by norm_num) (by simpa [Block.Contains, ipv6Value] using hcontains))
  · left
    unfold HeadListed
    rcases hblock with rfl | rfl | rfl | rfl | rfl | rfl | rfl <;>
      rw [contains_head (by norm_num) h₂ h₃ h₄ h₅ h₆ h₇] at hcontains <;>
      norm_num at hcontains <;> omega

lemma listed_cases {g₀ g₁ g₂ g₃ g₄ g₅ g₆ g₇ : ℕ} (h₁ : g₁ < 65536) (h₂ : g₂ < 65536)
    (h₃ : g₃ < 65536) (h₄ : g₄ < 65536) (h₅ : g₅ < 65536) (h₆ : g₆ < 65536) (h₇ : g₇ < 65536)
    (h : Listed (.v6 [g₀, g₁, g₂, g₃, g₄, g₅, g₆, g₇])) :
    HeadListed g₀ g₁ ∨ (g₀ = 0 ∧ g₁ = 0 ∧ g₂ = 0 ∧ g₃ = 0 ∧ g₄ = 0 ∧
      EndListed g₅ (g₆ * 65536 + g₇)) := by
  rcases h with ⟨block, hblock, hcontains⟩ | ⟨value, hvalue, hlisted, heq⟩
  · exact listed_of_block h₁ h₂ h₃ h₄ h₅ h₆ h₇ hblock hcontains
  · right
    have hfifth : ∃ fifth, (fifth = 0xffff ∨ fifth = 0) ∧
        ipv6Value [g₀, g₁, g₂, g₃, g₄, g₅, g₆, g₇] = fifth * 2 ^ 32 + value := by
      rcases heq with heq | heq
      · exact ⟨0, .inr rfl, by rw [heq]; ring⟩
      · exact ⟨0xffff, .inl rfl, heq⟩
    obtain ⟨fifth, hcases, hvalue'⟩ := hfifth
    have hlt : fifth < 65536 := by rcases hcases with rfl | rfl <;> norm_num
    obtain ⟨hg₀, hg₁, hg₂, hg₃, hg₄, rfl, rfl⟩ :=
      groups_of_value h₅ h₆ h₇ hlt hvalue hvalue'
    exact ⟨hg₀, hg₁, hg₂, hg₃, hg₄, hcases.imp (⟨·, hlisted⟩) (⟨·, .inr hlisted⟩)⟩

lemma headListed_of_masks {head second : ℕ} (h : head < 65536) :
    HeadListed head second ↔ (head = 0x0064 ∧ second = 0xff9b) ∨ head &&& 0xfe00 = 0xfc00 ∨
      head &&& 0xffc0 = 0xfe80 ∨ head &&& 0xff00 = 0xff00 ∨ head = 0x2002 ∨
      (head = 0x2001 ∧ second = 0x0000) ∨ (head = 0x2001 ∧ second = 0x0db8) := by
  have hlocal : head &&& 0xfe00 = head / 2 ^ 9 * 2 ^ 9 :=
    and_high_mask (n := 16) (k := 9) (by norm_num) h
  have hlink : head &&& 0xffc0 = head / 2 ^ 6 * 2 ^ 6 :=
    and_high_mask (n := 16) (k := 6) (by norm_num) h
  have hmulticast : head &&& 0xff00 = head / 2 ^ 8 * 2 ^ 8 :=
    and_high_mask (n := 16) (k := 8) (by norm_num) h
  rw [hlocal, hlink, hmulticast, HeadListed]
  norm_num
  omega

/-- The filter of eight groups, by the ranges they lie in. -/
lemma isBlockedGroups_iff {g₀ g₁ g₂ g₃ g₄ g₅ g₆ g₇ : ℕ} (h₀ : g₀ < 65536) (h₆ : g₆ < 65536)
    (h₇ : g₇ < 65536) :
    isBlockedGroups [g₀, g₁, g₂, g₃, g₄, g₅, g₆, g₇] = true ↔
      HeadListed g₀ g₁ ∨ (g₀ = 0 ∧ g₁ = 0 ∧ g₂ = 0 ∧ g₃ = 0 ∧ g₄ = 0 ∧
        EndListed g₅ (g₆ * 65536 + g₇)) := by
  have hipv4 : isBlockedIpv4Value (g₆ * 65536 + g₇) = true ↔ ListedIpv4 (g₆ * 65536 + g₇) :=
    isBlockedIpv4Value_iff (by norm_num; omega)
  unfold EndListed
  rw [← hipv4, headListed_of_masks h₀]
  unfold isBlockedGroups embeddedIpv4
  simp only [List.take_succ_cons, List.take_zero, List.all_cons, List.all_nil, Bool.and_true,
    Bool.and_eq_true, decide_eq_true_eq, List.getD_cons_zero, List.getD_cons_succ]
  by_cases hzero : g₀ = 0 ∧ g₁ = 0 ∧ g₂ = 0 ∧ g₃ = 0 ∧ g₄ = 0
  · obtain ⟨rfl, rfl, rfl, rfl, rfl⟩ := hzero
    by_cases hmapped : g₅ = 0xffff
    · simp [hmapped]
    · by_cases hcompatible : g₅ = 0
      · simp [hcompatible]
      · simp [hmapped, hcompatible]
  · rw [if_neg (fun h => hzero h.1), if_neg (fun h => hzero h.1)]
    have hend : ¬ (g₀ = 0 ∧ g₁ = 0 ∧ g₂ = 0 ∧ g₃ = 0 ∧ g₄ = 0 ∧
        ((g₅ = 0xffff ∧ isBlockedIpv4Value (g₆ * 65536 + g₇) = true) ∨
          (g₅ = 0 ∧ (g₆ * 65536 + g₇ ≤ 1 ∨
            isBlockedIpv4Value (g₆ * 65536 + g₇) = true)))) := by
      tauto
    rw [or_iff_left hend]
    split_ifs with hnat
    · simp [hnat]
    · simp [hnat, or_assoc]

end Ranges

end Appspine.DestinationPolicy
