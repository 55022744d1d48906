import Appspine.DestinationAddresses

/-!
# The filter of addresses is spelling-proof

Every text that denotes an IPv6 address expands to its groups, or to groups that the filter does
not take for a callable address when the denoted one is listed.
-/
namespace Appspine.DestinationPolicy
open JsText IpText AddressBlocks Results

section HexTexts

/-- Digits and colons. -/
def HexText (text : JsString) : Prop := ∀ u ∈ text, u = colon ∨ ∃ d, digitValue u = some d

variable {x y : JsString}

lemma hexText_append (hx : HexText x) (hy : HexText y) : HexText (x ++ y) := by
  intro u hu
  rcases List.mem_append.mp hu with hu | hu
  · exact hx u hu
  · exact hy u hu

lemma hexText_colon : HexText [colon] := by
  intro u hu
  exact .inl (List.mem_singleton.mp hu)

lemma hexText_colons : HexText (js "::") := by
  have hjs : js "::" = [colon] ++ [colon] := by decide
  rw [hjs]
  exact hexText_append hexText_colon hexText_colon

lemma hexText_join {ps : List JsString} {ns : List ℕ}
    (h : List.Forall₂ (fun piece n => hexGroup piece = some n) ps ns) :
    HexText (join [colon] ps) := by
  induction h with
  | nil => exact fun u hu => absurd hu List.not_mem_nil
  | @cons p n ps ns hgroup hrest ih =>
    have hp : HexText p := by
      intro u hu
      obtain ⟨d, -, hd⟩ :=
        readDigits_units (digits_eq_some.mp (hexGroup_eq_some.mp hgroup).2).2 u hu
      exact .inr ⟨d, hd⟩
    cases ps with
    | nil => rwa [join_singleton]
    | cons q ps =>
      rw [join_cons_cons]
      exact hexText_append (hexText_append hp hexText_colon) ih

lemma notMem_of_hexText (hx : HexText x) {u : CodeUnit} (hu : u ≠ colon)
    (hdigit : digitValue u = none) : u ∉ x := by
  intro hmem
  rcases hx u hmem with hcolon | ⟨d, hd⟩
  · exact hu hcolon
  · rw [hdigit] at hd
    cases hd

lemma dot_notMem_of_hexText (hx : HexText x) : dot ∉ x :=
  notMem_of_hexText hx (by decide) digitValue_separators.1

lemma percent_notMem_of_hexText (hx : HexText x) : percent ∉ x :=
  notMem_of_hexText hx (by decide) digitValue_separators.2.2

lemma oneLine_of_hexText (hx : HexText x) : x.any isLineTerminator = false := by
  rw [List.any_eq_false]
  intro u hu
  rcases hx u hu with rfl | ⟨d, hd⟩
  · decide
  · simp [not_isLineTerminator_of_digit hd]

end HexTexts

section Bodies

lemma join_append {hs ts : List JsString} (hhs : hs ≠ []) (hts : ts ≠ []) :
    join [colon] (hs ++ ts) = join [colon] hs ++ colon :: join [colon] ts := by
  obtain ⟨h, hs, rfl⟩ := List.exists_cons_of_ne_nil hhs
  obtain ⟨t, ts, rfl⟩ := List.exists_cons_of_ne_nil hts
  induction hs generalizing h with
  | nil => simp [join_cons_cons]
  | cons next hs ih =>
    have hrec := ih next (List.cons_ne_nil _ _)
    rw [List.cons_append] at hrec
    rw [List.cons_append, List.cons_append, join_cons_cons, hrec, join_cons_cons]
    simp

/-- The groups as they are read when the four octets before a zone are taken for one group: the
zeros of `::` are one more, and the last group has at most three digits. -/
def Shifted (groups read : List ℕ) : Prop :=
  ∃ front back high low last, front.length + back.length = 5 ∧ last < 4096 ∧
    groups = front ++ 0 :: back ++ [high, low] ∧ read = front ++ 0 :: 0 :: back ++ [last]

/-- How a text without zone is read. -/
inductive Body (groups : List ℕ) : JsString → Prop where
  | hex {body : JsString} (hbody : HexText body)
      (hread : expandGroups body = .ok (some groups)) : Body groups body
  | dotted {front last : JsString} {value : ℕ} (hfront : HexText front)
      (hlast : ipv4Value last = some value)
      (hfolded : expandGroups (front ++ colon :: (toHex (value / 65536) ++
        colon :: toHex (value % 65536))) = .ok (some groups))
      (hread : expandGroups (front ++ colon :: last) = .ok none ∨
        ∃ read, expandGroups (front ++ colon :: last) = .ok (some read) ∧ Shifted groups read) :
      Body groups (front ++ colon :: last)

/-- The two groups in which an IPv4 address is written. -/
lemma forall₂_folded {hs : List JsString} {head : List ℕ} {value : ℕ}
    (h : List.Forall₂ (fun piece n => hexGroup piece = some n) hs head)
    (hvalue : value < 4294967296) :
    List.Forall₂ (fun piece n => hexGroup piece = some n)
      (hs ++ [toHex (value / 65536), toHex (value % 65536)])
      (head ++ [value / 65536, value % 65536]) := by
  refine List.rel_append h (.cons (hexGroup_toHex ?_) (.cons (hexGroup_toHex ?_) .nil))
  · omega
  · omega

lemma body_full {ps : List JsString} {groups : List ℕ} (h : piecesGroups ps = some groups)
    (hlength : groups.length = 8) : Body groups (join [colon] ps) := by
  have hhex : ∀ {qs}, List.Forall₂ (fun piece n => hexGroup piece = some n) qs groups →
      expandGroups (join [colon] qs) = .ok (some groups) := by
    intro qs hqs
    obtain ⟨hpieces, hlt, hmap⟩ := pieces_of_hexGroups hqs
    rw [expandGroups_join hpieces, hmap, checkedGroups_values hlength hlt]
  rcases piecesGroups_cases h with hall | ⟨hs, last, head, value, rfl, hhead, hvalue, rfl⟩
  · exact .hex (hexText_join hall) (hhex hall)
  · have hheadLength : head.length = 6 := by simpa using hlength
    have hne : hs ≠ [] := by
      rintro rfl
      cases hhead
      cases hheadLength
    have hfolded := hhex (forall₂_folded hhead (ipv4Value_lt hvalue))
    have hpieces : ∀ p ∈ hs ++ [last], Piece p := by
      intro p hp
      rcases List.mem_append.mp hp with hp | hp
      · exact (pieces_of_hexGroups hhead).1 p hp
      · exact List.mem_singleton.mp hp ▸ piece_of_ipv4 hvalue
    have hread : expandGroups (join [colon] (hs ++ [last])) = .ok none := by
      have hcount : ((hs ++ [last]).map parseInt16).length ≠ 8 := by
        rw [List.length_map, List.length_append, hhead.length_eq, hheadLength]
        simp
      rw [expandGroups_join hpieces, checkedGroups, if_pos hcount]
    rw [join_append hne (List.cons_ne_nil _ _), join_cons_cons, join_singleton] at hfolded
    rw [join_append hne (List.cons_ne_nil _ _), join_singleton] at hread ⊢
    exact .dotted (hexText_join hhead) hvalue (by simpa using hfolded) (.inl hread)

/-- `::` and the pieces after it up to the last ones. -/
lemma compressed_text {ls hs : List JsString} {head middle : List ℕ}
    (hls : List.Forall₂ (fun piece n => hexGroup piece = some n) ls head)
    (hhs : List.Forall₂ (fun piece n => hexGroup piece = some n) hs middle) :
    ∃ front, HexText front ∧ ∀ ts, ts ≠ [] → join [colon] ls ++ js "::" ++ join [colon] (hs ++ ts) =
      front ++ colon :: join [colon] ts := by
  have hleft := hexText_join hls
  by_cases hne : hs = []
  · subst hne
    have hjs : js "::" = [colon, colon] := by decide
    exact ⟨join [colon] ls ++ [colon], hexText_append hleft hexText_colon, fun ts _ => by simp [hjs]⟩
  · refine ⟨join [colon] ls ++ js "::" ++ join [colon] hs,
      hexText_append (hexText_append hleft hexText_colons) (hexText_join hhs), fun ts hts => ?_⟩
    rw [join_append hne hts]
    simp

lemma body_compressed {ls rs : List JsString} {head tail : List ℕ}
    (hls : List.Forall₂ (fun piece n => hexGroup piece = some n) ls head)
    (hrs : piecesGroups rs = some tail) (hlength : head.length + tail.length ≤ 7) :
    Body (compressed head tail) (join [colon] ls ++ js "::" ++ join [colon] rs) := by
  obtain ⟨hlsPieces, hheadLt, hlsMap⟩ := pieces_of_hexGroups hls
  have hhex : ∀ {qs}, List.Forall₂ (fun piece n => hexGroup piece = some n) qs tail →
      expandGroups (join [colon] ls ++ js "::" ++ join [colon] qs) =
        .ok (some (compressed head tail)) := by
    intro qs hqs
    obtain ⟨hpieces, hlt, hmap⟩ := pieces_of_hexGroups hqs
    exact expandGroups_values hlsPieces hpieces hlsMap hmap hheadLt hlt (by omega)
  rcases piecesGroups_cases hrs with hall | ⟨hs, last, middle, value, rfl, hmiddle, hvalue, rfl⟩
  · exact .hex (hexText_append (hexText_append (hexText_join hls) hexText_colons)
      (hexText_join hall)) (hhex hall)
  · have hmiddleLength : head.length + middle.length ≤ 5 := by
      rw [List.length_append] at hlength
      simp only [List.length_cons, List.length_nil] at hlength
      omega
    obtain ⟨hhsPieces, hmiddleLt, hhsMap⟩ := pieces_of_hexGroups hmiddle
    obtain ⟨n, hn, hparse⟩ := parseInt16_ipv4 hvalue
    have hpieces : ∀ p ∈ hs ++ [last], Piece p := by
      intro p hp
      rcases List.mem_append.mp hp with hp | hp
      · exact hhsPieces p hp
      · exact List.mem_singleton.mp hp ▸ piece_of_ipv4 hvalue
    have hreadLt : ∀ m ∈ middle ++ [n], m < 65536 := by
      intro m hm
      rcases List.mem_append.mp hm with hm | hm
      · exact hmiddleLt m hm
      · have := List.mem_singleton.mp hm
        omega
    have hread : expandGroups (join [colon] ls ++ js "::" ++ join [colon] (hs ++ [last])) =
        .ok (some (compressed head (middle ++ [n]))) := by
      refine expandGroups_values hlsPieces hpieces hlsMap ?_ hheadLt hreadLt ?_
      · simp [hhsMap, hparse]
      · rw [List.length_append, List.length_singleton]
        omega
    have hshifted : Shifted (compressed head (middle ++ [value / 65536, value % 65536]))
        (compressed head (middle ++ [n])) := by
      obtain ⟨k, hk⟩ : ∃ k, 8 - (head.length + (middle.length + 2)) = k + 1 :=
        ⟨8 - (head.length + (middle.length + 2)) - 1, by omega⟩
      have hk' : 8 - (head.length + (middle.length + 1)) = k + 2 := by omega
      refine ⟨head ++ List.replicate k 0, middle, value / 65536, value % 65536, n, ?_, hn, ?_, ?_⟩
      · rw [List.length_append, List.length_replicate]
        omega
      · simp [compressed, hk, List.replicate_succ']
      · simp [compressed, hk', List.replicate_succ']
    obtain ⟨front, hfront, htext⟩ := compressed_text hls hmiddle
    have hfolded := hhex (forall₂_folded hmiddle (ipv4Value_lt hvalue))
    rw [htext _ (List.cons_ne_nil _ _), join_cons_cons, join_singleton] at hfolded
    rw [htext _ (List.cons_ne_nil _ _), join_singleton] at hread ⊢
    exact .dotted hfront hvalue (by simpa using hfolded) (.inr ⟨_, hread, hshifted⟩)

lemma body_of_ipv6Groups {body : JsString} {groups : List ℕ}
    (h : ipv6Groups body = some groups) : Body groups body := by
  rcases ipv6Groups_cases h with ⟨ps, -, rfl, hps, hlength⟩ |
    ⟨ls, rs, head, tail, rfl, hls, hrs, hlength, rfl⟩
  · exact body_full hps hlength
  · exact body_compressed hls hrs hlength

lemma validGroups_lt {gs : List (Option ℤ)} {groups : List ℕ} (h : validGroups gs = some groups) :
    groups.length = gs.length ∧ ∀ g ∈ groups, g < 65536 := by
  have hall := forall₂_of_mapM h
  refine ⟨hall.length_eq.symm, ?_⟩
  clear h
  induction hall with
  | nil => simp
  | cons hgroup _ ih =>
    refine List.forall_mem_cons.mpr ⟨?_, ih⟩
    obtain ⟨n, -, hn⟩ := Option.bind_eq_some_iff.mp hgroup
    split_ifs at hn with hbounds
    have := Option.some.inj hn
    omega

/-- Eight groups of 16 bits, where there are any. -/
lemma expandGroups_groups {text : JsString} {groups : List ℕ}
    (h : expandGroups text = .ok (some groups)) :
    groups.length = 8 ∧ ∀ g ∈ groups, g < 65536 := by
  have hchecked : ∀ gs, checkedGroups gs = some groups →
      groups.length = 8 ∧ ∀ g ∈ groups, g < 65536 := by
    intro gs hgs
    unfold checkedGroups at hgs
    split_ifs at hgs with hlength
    obtain ⟨hgroups, hlt⟩ := validGroups_lt hgs
    exact ⟨hgroups.trans (not_not.mp hlength), hlt⟩
  unfold expandGroups at h
  rcases hleft : breakOn (js "::") text with ⟨left, _ | rest⟩
  · simp only [hleft] at h
    exact hchecked _ (Except.ok.inj h)
  · rcases hright : breakOn (js "::") rest with ⟨right, _ | _⟩
    · simp only [hleft, hright] at h
      split at h
      · cases h
      · exact hchecked _ (Except.ok.inj h)
    · simp only [hleft, hright] at h
      cases Except.ok.inj h

lemma body_groups {groups : List ℕ} {body : JsString} (h : Body groups body) :
    groups.length = 8 ∧ ∀ g ∈ groups, g < 65536 := by
  cases h with
  | hex _ hread => exact expandGroups_groups hread
  | dotted _ _ hfolded _ => exact expandGroups_groups hfolded

lemma expandIpv6_groups {text : JsString} {groups : List ℕ}
    (h : expandIpv6 text = .ok (some groups)) :
    groups.length = 8 ∧ ∀ g ∈ groups, g < 65536 := by
  unfold expandIpv6 at h
  split at h
  · exact expandGroups_groups h
  · split_ifs at h
    · cases Except.ok.inj h
    · exact expandGroups_groups h

end Bodies

section Expansion

lemma bodyOf_append_zoneOf (text : JsString) : bodyOf text ++ zoneOf text = text :=
  List.takeWhile_append_dropWhile

lemma percent_notMem_bodyOf (text : JsString) : percent ∉ bodyOf text := by
  intro hmem
  have hne := List.mem_takeWhile_imp hmem
  simp at hne

lemma zoneOf_cases (text : JsString) : zoneOf text = [] ∨ (zoneOf text).head? = some percent := by
  by_cases hne : zoneOf text = []
  · exact .inl hne
  · right
    have hhead := List.head_dropWhile_not (fun u => decide (u ≠ percent)) hne
    rw [List.head?_eq_some_head hne]
    simpa [zoneOf] using hhead

/-- The expansion of a text that denotes an IPv6 address. -/
theorem expandIpv6_cases {text : JsString} {groups : List ℕ}
    (h : ipv6Groups (bodyOf text) = some groups) :
    expandIpv6 text = .ok none ∨ expandIpv6 text = .ok (some groups) ∨
      ∃ read, expandIpv6 text = .ok (some read) ∧ Shifted groups read := by
  have hbody := body_of_ipv6Groups h
  have hpercent := percent_notMem_bodyOf text
  have htext := bodyOf_append_zoneOf text
  generalize bodyOf text = body at hbody hpercent htext
  rcases zoneOf_cases text with hzone | hzone
  · rw [hzone, List.append_nil] at htext
    subst htext
    right
    left
    cases hbody with
    | hex hhex hread =>
      unfold expandIpv6
      rw [dottedTail_eq_none (dot_notMem_of_hexText hhex)]
      simpa [bodyOf_eq_self hpercent] using hread
    | dotted hfront hlast hfolded _ =>
      rw [expandIpv6_ipv4 hlast (oneLine_of_hexText hfront) (percent_notMem_of_hexText hfront)]
      exact hfolded
  · have hexpand := expandIpv6_zone hpercent hzone
    rw [htext] at hexpand
    rcases hexpand with hnone | hexpand
    · exact .inl hnone
    · rw [hexpand]
      cases hbody with
      | hex _ hread => exact .inr (.inl hread)
      | dotted _ _ _ hread => exact hread.imp_right .inr

end Expansion

section Shift

lemma listedIpv4_of_low {value : ℕ} (h : value < 16777216) : ListedIpv4 value := by
  refine ⟨⟨ipv4 0 0 0 0, 8⟩, List.mem_cons_self, ?_⟩
  norm_num [Block.Contains, ipv4]
  omega

lemma listedIpv4_of_high {value : ℕ} (h : 4026531840 ≤ value) (hlt : value < 4294967296) :
    ListedIpv4 value := by
  refine ⟨⟨ipv4 240 0 0 0, 4⟩, by simp [blockedIpv4], ?_⟩
  norm_num [Block.Contains, ipv4]
  omega

lemma exists_of_length_eight {groups : List ℕ} (h : groups.length = 8) :
    ∃ g₀ g₁ g₂ g₃ g₄ g₅ g₆ g₇, groups = [g₀, g₁, g₂, g₃, g₄, g₅, g₆, g₇] := by
  rcases groups with _ | ⟨g₀, _ | ⟨g₁, _ | ⟨g₂, _ | ⟨g₃, _ | ⟨g₄, _ | ⟨g₅, _ | ⟨g₆, _ | ⟨g₇, _ | _⟩⟩⟩⟩⟩⟩⟩⟩
  case cons.cons.cons.cons.cons.cons.cons.cons.nil => exact ⟨_, _, _, _, _, _, _, _, rfl⟩
  all_goals simp at h

/-- What is the same in groups and in their shifted reading. -/
lemma shifted_cases {g₀ g₁ g₂ g₃ g₄ g₅ g₆ g₇ r₀ r₁ r₂ r₃ r₄ r₅ r₆ r₇ : ℕ}
    (h : Shifted [g₀, g₁, g₂, g₃, g₄, g₅, g₆, g₇] [r₀, r₁, r₂, r₃, r₄, r₅, r₆, r₇]) :
    r₀ = g₀ ∧ r₇ < 4096 ∧ (g₀ ≠ 0 → r₁ = g₁) ∧
      (g₀ = 0 → g₁ = 0 → g₂ = 0 → g₃ = 0 → g₄ = 0 →
        r₁ = 0 ∧ r₂ = 0 ∧ r₃ = 0 ∧ r₄ = 0 ∧ r₅ = 0 ∧ r₆ = g₅) := by
  obtain ⟨front, back, high, low, last, hlength, hlast, hgroups, hread⟩ := h
  rcases front with _ | ⟨f₀, _ | ⟨f₁, _ | ⟨f₂, _ | ⟨f₃, _ | ⟨f₄, _ | ⟨f₅, front⟩⟩⟩⟩⟩⟩ <;>
    rcases back with _ | ⟨b₀, _ | ⟨b₁, _ | ⟨b₂, _ | ⟨b₃, _ | ⟨b₄, _ | ⟨b₅, back⟩⟩⟩⟩⟩⟩ <;>
    simp at hlength hgroups hread <;> omega

/-- A shifted reading that the filter lets pass is one of groups that are not listed. -/
lemma not_listed_of_shifted {groups read : List ℕ} (hshifted : Shifted groups read)
    (hlength : groups.length = 8) (hlt : ∀ g ∈ groups, g < 65536) (hreadLength : read.length = 8)
    (hreadLt : ∀ g ∈ read, g < 65536) (hfree : isBlockedGroups read = false) :
    ¬ Listed (.v6 groups) := by
  obtain ⟨g₀, g₁, g₂, g₃, g₄, g₅, g₆, g₇, rfl⟩ := exists_of_length_eight hlength
  obtain ⟨r₀, r₁, r₂, r₃, r₄, r₅, r₆, r₇, rfl⟩ := exists_of_length_eight hreadLength
  obtain ⟨hfirst, hlast, hsecond, hzeros⟩ := shifted_cases hshifted
  simp only [List.forall_mem_cons] at hlt hreadLt
  obtain ⟨h₀, h₁, h₂, h₃, h₄, h₅, h₆, h₇, -⟩ := hlt
  obtain ⟨hr₀, -, -, -, -, -, hr₆, hr₇, -⟩ := hreadLt
  intro hlisted
  have hblocked : isBlockedGroups [r₀, r₁, r₂, r₃, r₄, r₅, r₆, r₇] = true := by
    rw [isBlockedGroups_iff hr₀ hr₆ hr₇]
    rcases listed_cases h₁ h₂ h₃ h₄ h₅ h₆ h₇ hlisted with hhead | ⟨rfl, rfl, rfl, rfl, rfl, hend⟩
    · left
      have hne : g₀ ≠ 0 := by
        rintro rfl
        norm_num [HeadListed] at hhead
      rw [hfirst, hsecond hne]
      exact hhead
    · right
      obtain ⟨rfl, rfl, rfl, rfl, rfl, rfl⟩ := hzeros rfl rfl rfl rfl rfl
      refine ⟨hfirst, rfl, rfl, rfl, rfl, .inr ⟨rfl, .inr ?_⟩⟩
      -- What remains of the octets lies in `0.0.0.0/8`, or in `240.0.0.0/4` behind `ffff`.
      rcases hend with ⟨rfl, -⟩ | ⟨rfl, -⟩
      · exact listedIpv4_of_high (by omega) (by omega)
      · exact listedIpv4_of_low (by omega)
  rw [hfree] at hblocked
  cases hblocked

end Shift

section Spellings

variable {toLowerCase : JsString → JsString} {address : JsString}

lemma isBlockedAddress_v4 {value : ℕ}
    (h : addressOf (normalized toLowerCase address) = some (.v4 value)) :
    isBlockedAddress toLowerCase address = .ok (isBlockedIpv4Value value) ∧ value < 4294967296 := by
  have hvalue : ipv4Value (normalized toLowerCase address) = some value := by
    unfold addressOf at h
    split at h
    · rename_i found hfound
      obtain rfl := Address.v4.inj (Option.some.inj h)
      exact hfound
    · split_ifs at h
      simp at h
  obtain ⟨p, q, r, s, a, b, c, d, hsplit, hp, hq, hr, hs, rfl⟩ := ipv4Value_eq_some hvalue
  refine ⟨?_, ipv4Value_lt hvalue⟩
  have hip : isIP (normalized toLowerCase address) = 4 := by
    unfold isIP
    rw [h]
  unfold isBlockedAddress
  simp only [hip, if_true, hsplit, List.map_cons, List.map_nil, (octet_eq_some hp).2.1,
    (octet_eq_some hq).2.1, (octet_eq_some hr).2.1, (octet_eq_some hs).2.1]

lemma isBlockedAddress_v6 {groups : List ℕ}
    (h : addressOf (normalized toLowerCase address) = some (.v6 groups)) :
    ipv6Groups (bodyOf (normalized toLowerCase address)) = some groups ∧
      isBlockedAddress toLowerCase address =
        (expandIpv6 (normalized toLowerCase address)).map fun found => found.elim true
          isBlockedGroups := by
  have hgroups : ipv6Groups (bodyOf (normalized toLowerCase address)) = some groups := by
    unfold addressOf at h
    split at h
    · simp at h
    · split_ifs at h
      obtain ⟨found, hfound, heq⟩ := Option.map_eq_some_iff.mp h
      obtain rfl := Address.v6.inj heq
      exact hfound
  refine ⟨hgroups, ?_⟩
  have hip : isIP (normalized toLowerCase address) = 6 := by
    unfold isIP
    rw [h]
  unfold isBlockedAddress
  simp only [hip]
  rw [if_neg (by norm_num), if_pos trivial]
  rcases expandIpv6 (normalized toLowerCase address) with error | _ | found
  · rfl
  · rfl
  · rfl

/-- The filter answers for every text. -/
theorem isBlockedAddress_total : ∃ blocked, isBlockedAddress toLowerCase address = .ok blocked := by
  cases haddress : addressOf (normalized toLowerCase address) with
  | none =>
    have hip : isIP (normalized toLowerCase address) = 0 := by
      unfold isIP
      rw [haddress]
    refine ⟨true, ?_⟩
    unfold isBlockedAddress
    simp only [hip]
    rw [if_neg (by norm_num), if_neg (by norm_num)]
  | some found =>
    cases found with
    | v4 value => exact ⟨_, (isBlockedAddress_v4 haddress).1⟩
    | v6 groups =>
      obtain ⟨hgroups, hblocked⟩ := isBlockedAddress_v6 haddress
      rw [hblocked]
      rcases expandIpv6_cases hgroups with hexpand | hexpand | ⟨read, hexpand, -⟩ <;>
        exact ⟨_, by rw [hexpand]; rfl⟩

/-- What the filter lets pass denotes an address that is not listed. -/
theorem not_listed_of_normalized {a : Address}
    (h : addressOf (normalized toLowerCase address) = some a)
    (hfree : isBlockedAddress toLowerCase address = .ok false) : ¬ Listed a := by
  cases a with
  | v4 value =>
    obtain ⟨hblocked, hlt⟩ := isBlockedAddress_v4 h
    rw [hfree] at hblocked
    intro hlisted
    have htrue := (isBlockedIpv4Value_iff hlt).mpr hlisted
    rw [← Except.ok.inj hblocked] at htrue
    cases htrue
  | v6 groups =>
    obtain ⟨hgroups, hblocked⟩ := isBlockedAddress_v6 h
    rw [hfree] at hblocked
    obtain ⟨hlength, hlt⟩ := body_groups (body_of_ipv6Groups hgroups)
    rcases expandIpv6_cases hgroups with hexpand | hexpand | ⟨read, hexpand, hshifted⟩
    · rw [hexpand] at hblocked
      cases Except.ok.inj hblocked
    · rw [hexpand] at hblocked
      have hgroupsFree : isBlockedGroups groups = false := (Except.ok.inj hblocked).symm
      obtain ⟨g₀, g₁, g₂, g₃, g₄, g₅, g₆, g₇, rfl⟩ := exists_of_length_eight hlength
      simp only [List.forall_mem_cons] at hlt
      obtain ⟨h₀, h₁, h₂, h₃, h₄, h₅, h₆, h₇, -⟩ := hlt
      intro hlisted
      have htrue := (isBlockedGroups_iff h₀ h₆ h₇).mpr (listed_cases h₁ h₂ h₃ h₄ h₅ h₆ h₇ hlisted)
      rw [hgroupsFree] at htrue
      cases htrue
    · rw [hexpand] at hblocked
      obtain ⟨hreadLength, hreadLt⟩ := expandIpv6_groups hexpand
      exact not_listed_of_shifted hshifted hlength hlt hreadLength hreadLt
        (Except.ok.inj hblocked).symm

end Spellings

section AsciiTexts

/-- What `toLowerCase` does to ASCII characters. -/
def LowersAscii (toLowerCase : JsString → JsString) : Prop :=
  ∀ text : JsString, (∀ u ∈ text, u.val < 128) → toLowerCase text = asciiLower text

/-- Digits, letters and the four other units of addresses: ASCII, and no bracket. -/
def AddressUnit (u : CodeUnit) : Prop := u.val < 91 ∨ (96 < u.val ∧ u.val < 128)

lemma addressUnit_of_digit {u : CodeUnit} {d : ℕ} (h : digitValue u = some d) :
    AddressUnit u := by
  have hrange := digitValue_range h
  unfold AddressUnit
  omega

lemma addressUnits_of_hexText {x : JsString} (hx : HexText x) : ∀ u ∈ x, AddressUnit u := by
  intro u hu
  rcases hx u hu with rfl | ⟨d, hd⟩
  · exact .inl (by decide)
  · exact addressUnit_of_digit hd

lemma addressUnits_of_ipv4 {text : JsString} {value : ℕ} (h : ipv4Value text = some value) :
    ∀ u ∈ text, AddressUnit u := by
  intro u hu
  rcases ipv4_units h u hu with rfl | ⟨d, -, hd⟩
  · exact .inl (by decide)
  · exact addressUnit_of_digit hd

lemma addressUnits_of_body {groups : List ℕ} {body : JsString} (h : Body groups body) :
    ∀ u ∈ body, AddressUnit u := by
  cases h with
  | hex hhex _ => exact addressUnits_of_hexText hhex
  | dotted hfront hlast _ _ =>
    intro u hu
    rcases List.mem_append.mp hu with hu | hu
    · exact addressUnits_of_hexText hfront u hu
    · rcases List.mem_cons.mp hu with rfl | hu
      · exact .inl (by decide)
      · exact addressUnits_of_ipv4 hlast u hu

lemma addressUnits_of_zone {text : JsString} (h : isZone (zoneOf text) = true) :
    ∀ u ∈ zoneOf text, AddressUnit u := by
  rcases zoneOf_cases text with hzone | hzone
  · simp [hzone]
  · obtain ⟨v, name, hcons⟩ :=
      List.exists_cons_of_ne_nil (l := zoneOf text) (by intro hnil; simp [hnil] at hzone)
    obtain rfl : v = percent := by simpa [hcons] using hzone
    rw [hcons] at h ⊢
    simp only [isZone, Bool.and_eq_true, List.all_eq_true] at h
    intro u hu
    rcases List.mem_cons.mp hu with rfl | hu
    · exact .inl (by decide)
    · have hunit := h.2 u hu
      simp only [isZoneUnit, Bool.or_eq_true, decide_eq_true_eq, List.mem_cons, List.not_mem_nil,
        or_false] at hunit
      rcases hunit with hdigit | rfl | rfl | rfl
      · obtain ⟨d, hd⟩ := Option.isSome_iff_exists.mp hdigit
        exact addressUnit_of_digit hd
      all_goals exact .inl (by decide)

lemma addressUnits {text : JsString} {a : Address} (h : addressOf text = some a) :
    ∀ u ∈ text, AddressUnit u := by
  unfold addressOf at h
  split at h
  · rename_i value hvalue
    exact addressUnits_of_ipv4 hvalue
  · split_ifs at h with hzone
    obtain ⟨groups, hgroups, -⟩ := Option.map_eq_some_iff.mp h
    intro u hu
    rw [← bodyOf_append_zoneOf text] at hu
    rcases List.mem_append.mp hu with hu | hu
    · exact addressUnits_of_body (body_of_ipv6Groups hgroups) u hu
    · exact addressUnits_of_zone hzone u hu

end AsciiTexts

section Brackets

lemma withoutBrackets_eq_self {text : JsString} (h : ∀ u ∈ text, AddressUnit u) :
    withoutBrackets text = text := by
  have hbrackets : ¬ AddressUnit (unit '[') ∧ ¬ AddressUnit (unit ']') := by
    unfold AddressUnit
    decide
  have hhead : text.head? ≠ some (unit '[') := fun hhead =>
    hbrackets.1 (h _ (List.mem_of_mem_head? hhead))
  have hlast : text.getLast? ≠ some (unit ']') := fun hlast =>
    hbrackets.2 (h _ (List.mem_of_getLast? hlast))
  simp only [withoutBrackets, if_neg hhead, if_neg hlast]

lemma mem_withoutBrackets {address : JsString} {u : CodeUnit} (hu : u ∈ address) :
    u = unit '[' ∨ u = unit ']' ∨ u ∈ withoutBrackets address := by
  have hopened : ∀ opened : JsString, u ∈ opened → u = unit ']' ∨
      u ∈ (if opened.getLast? = some (unit ']') then opened.dropLast else opened) := by
    intro opened hmem
    split_ifs with hlast
    · rw [← List.dropLast_append_getLast? _ hlast, List.mem_append, List.mem_singleton] at hmem
      exact hmem.symm
    · exact .inr hmem
  unfold withoutBrackets
  cases address with
  | nil => cases hu
  | cons v rest =>
    rcases List.mem_cons.mp hu with rfl | hrest
    · by_cases hv : u = unit '['
      · exact .inl hv
      · right
        have hne : (u :: rest).head? ≠ some (unit '[') := by simpa using hv
        simp only [if_neg hne]
        exact hopened _ hu
    · right
      by_cases hv : (v :: rest).head? = some (unit '[')
      · simp only [if_pos hv]
        exact hopened _ hrest
      · simp only [if_neg hv]
        exact hopened _ hu

lemma withoutBrackets_asciiLower (address : JsString) :
    withoutBrackets (asciiLower address) = asciiLower (withoutBrackets address) := by
  have hhead : ∀ s : JsString, (asciiLower s).head? = some (unit '[') ↔
      s.head? = some (unit '[') := by
    intro s
    cases s with
    | nil => rfl
    | cons u us => simp [asciiLower, asciiLowerUnit_eq_iff (v := unit '[') (by decide)]
  have hlast : ∀ s : JsString, (asciiLower s).getLast? = some (unit ']') ↔
      s.getLast? = some (unit ']') := by
    intro s
    unfold asciiLower
    rw [List.getLast?_map]
    cases s.getLast? with
    | none => simp
    | some u => simp [asciiLowerUnit_eq_iff (v := unit ']') (by decide)]
  have hopened : (if (asciiLower address).head? = some (unit '[') then (asciiLower address).tail
      else asciiLower address) =
      asciiLower (if address.head? = some (unit '[') then address.tail else address) := by
    simp only [hhead]
    split_ifs
    · simp [asciiLower]
    · rfl
  simp only [withoutBrackets, hopened, hlast]
  split_ifs <;> simp [asciiLower]

variable {toLowerCase : JsString → JsString}

/-- A spelling denotes after normalization what it denotes. -/
lemma addressOf_normalized (hlower : LowersAscii toLowerCase) {address : JsString} {a : Address}
    (h : addressOf (withoutBrackets address) = some a) :
    addressOf (normalized toLowerCase address) = some a := by
  have hascii : ∀ u ∈ address, u.val < 128 := by
    intro u hu
    rcases mem_withoutBrackets hu with rfl | rfl | hmem
    · decide
    · decide
    · have := addressUnits h u hmem
      unfold AddressUnit at this
      omega
  unfold normalized
  rw [hlower address hascii, withoutBrackets_asciiLower, addressOf_asciiLower, h]

end Brackets

section Resolution

variable {toLowerCase : JsString → JsString} {parseUrl : JsString → Except JsString Url}
  {lookup : JsString → Except JsString (List JsString)}

lemma exists_address_of_free {address : JsString}
    (h : isBlockedAddress toLowerCase address = .ok false) :
    ∃ a, addressOf (normalized toLowerCase address) = some a := by
  cases haddress : addressOf (normalized toLowerCase address) with
  | none =>
    have hip : isIP (normalized toLowerCase address) = 0 := by
      unfold isIP
      rw [haddress]
    unfold isBlockedAddress at h
    simp only [hip] at h
    rw [if_neg (by norm_num), if_neg (by norm_num)] at h
    cases Except.ok.inj h
  | some a => exact ⟨a, rfl⟩

lemma free_of_assertNoneBlocked {addresses : List JsString}
    (h : assertNoneBlocked toLowerCase addresses = .ok ()) :
    ∀ address ∈ addresses, isBlockedAddress toLowerCase address = .ok false := by
  induction addresses with
  | nil => exact fun _ hmem => absurd hmem List.not_mem_nil
  | cons address rest ih =>
    obtain ⟨blocked, hblocked⟩ := @isBlockedAddress_total toLowerCase address
    cases blocked with
    | true =>
      simp [assertNoneBlocked, hblocked, bind, Except.bind] at h
    | false =>
      simp only [assertNoneBlocked, hblocked, bind, Except.bind, Bool.false_eq_true, if_false] at h
      exact List.forall_mem_cons.mpr ⟨hblocked, ih h⟩

lemma assertNoneBlocked_of_resolve {urlValue : JsString} {options : DestinationPolicyOptions}
    {found : SafeDestination}
    (h : resolveSafeDestination toLowerCase parseUrl lookup urlValue options = .ok found) :
    assertNoneBlocked toLowerCase found.addresses = .ok () := by
  unfold resolveSafeDestination at h
  obtain ⟨url, -, h⟩ := bind_eq_ok.mp h
  dsimp only at h
  split_ifs at h
  -- Both for a host that is an address and for one that was looked up.
  all_goals
    obtain ⟨addresses, -, h⟩ := bind_eq_ok.mp h
    split_ifs at h
    obtain ⟨done, hnone, h⟩ := bind_eq_ok.mp h
    obtain rfl := Except.ok.inj h
    exact hnone

end Resolution

/-- Whatever a text looks like, no listed address passes the filter. -/
theorem isBlockedAddress_spelling_proof {toLowerCase : JsString → JsString}
    (parseUrl : JsString → Except JsString Url) (lookup : JsString → Except JsString (List JsString))
    (hlower : LowersAscii toLowerCase) :
    (∀ text a, addressOf text = some a →
      ∀ address, address = text ∨ withoutBrackets address = text →
        isBlockedAddress toLowerCase address = .ok false → ¬ Listed a) ∧
    ∀ urlValue options found,
      resolveSafeDestination toLowerCase parseUrl lookup urlValue options = .ok found →
      ∀ address ∈ found.addresses,
        (∃ a, addressOf (normalized toLowerCase address) = some a ∧ ¬ Listed a) ∧
        ∀ text a, addressOf text = some a →
          address = text ∨ withoutBrackets address = text → ¬ Listed a := by
  have hspelling : ∀ text a, addressOf text = some a →
      ∀ address, address = text ∨ withoutBrackets address = text →
        isBlockedAddress toLowerCase address = .ok false → ¬ Listed a := by
    intro text a haddress address hspelled hfree
    have htext : withoutBrackets address = text := by
      rcases hspelled with rfl | htext
      · exact withoutBrackets_eq_self (addressUnits haddress)
      · exact htext
    exact not_listed_of_normalized (addressOf_normalized hlower (htext ▸ haddress)) hfree
  refine ⟨hspelling, fun urlValue options found hfound address hmem => ?_⟩
  have hfree := free_of_assertNoneBlocked (assertNoneBlocked_of_resolve hfound) address hmem
  obtain ⟨a, ha⟩ := exists_address_of_free hfree
  exact ⟨⟨a, ha, not_listed_of_normalized ha hfree⟩,
    fun text b hb hspelled => hspelling text b hb address hspelled hfree⟩

/-- A public address in brackets and in upper case, with a zone. -/
theorem isBlockedAddress_spelling_proof_public :
    isBlockedAddress asciiLower (js "[2606:4700::1.0.0.1%ETH0]") = .ok false ∧
      ¬ Listed (.v6 [0x2606, 0x4700, 0, 0, 0, 0, 0x100, 1]) := by
  have hfree : isBlockedAddress asciiLower (js "[2606:4700::1.0.0.1%ETH0]") = .ok false := by
    decide +kernel
  have hlower : LowersAscii asciiLower := fun _ _ => rfl
  exact ⟨hfree, (isBlockedAddress_spelling_proof (fun _ => .error []) (fun _ => .ok []) hlower).1
    (js "2606:4700::1.0.0.1%ETH0") _ (by decide +kernel) (js "[2606:4700::1.0.0.1%ETH0]")
    (.inr (by decide +kernel)) hfree⟩

end Appspine.DestinationPolicy
