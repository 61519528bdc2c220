/-
# Reading UTF-8, strictly and with replacement

A decoder cuts the octets it is given into pieces: a piece is the encoding of one
character, or an ill-formed run that is as long as the octets seen so far could
still have become a character, and one octet at least.  A strict decoder refuses
where there is an ill-formed piece, a lenient one puts U+FFFD for each of them.

* `decode?_eq_some_iff` : strict decoding accepts the encoded texts and no others;
* `scan_append` : before an octet that cannot continue a character, octets are cut
  as if nothing stood after them, so an ill-formed run never swallows it;
* `decodeReplace_intercalate` : joining by an ASCII character and decoding commute.
-/
import WpaCtrl.Text

namespace Utf8

/-! ## The shape of an encoded character -/

/-- `80..BF`, the range of a continuation octet. -/
def continuation : ℕ × ℕ := (0x80, 0xBF)

/-- Whether an octet stands in a range. -/
def within (range : ℕ × ℕ) (b : UInt8) : Bool := range.1 ≤ b.toNat && b.toNat ≤ range.2

/-- The ranges of the octets a first octet asks for, and nothing for an octet that
starts no character. -/
def follow (b : UInt8) : Option (List (ℕ × ℕ)) :=
  if b.toNat < 0x80 then some []
  else if b.toNat < 0xC2 then none
  else if b.toNat < 0xE0 then some [continuation]
  else if b.toNat = 0xE0 then some [(0xA0, 0xBF), continuation]
  else if b.toNat = 0xED then some [(0x80, 0x9F), continuation]
  else if b.toNat < 0xF0 then some [continuation, continuation]
  else if b.toNat = 0xF0 then some [(0x90, 0xBF), continuation, continuation]
  else if b.toNat < 0xF4 then some [continuation, continuation, continuation]
  else if b.toNat = 0xF4 then some [(0x80, 0x8F), continuation, continuation]
  else none

/-- What a first octet adds to its payload, by the number of octets it asks for. -/
def mark : ℕ → ℕ
  | 0 => 0
  | 1 => 0xC0
  | 2 => 0xE0
  | _ => 0xF0

/-- The code point a first octet and its continuation octets spell. -/
def codePoint (b : UInt8) (more : List UInt8) : ℕ :=
  more.foldl (fun value d => value * 64 + (d.toNat - 0x80)) (b.toNat - mark more.length)

theorem within_iff (range : ℕ × ℕ) (b : UInt8) :
    within range b = true ↔ range.1 ≤ b.toNat ∧ b.toNat ≤ range.2 := by
  simp [within]

/-- Every octet after the first one is a continuation octet. -/
theorem continuation_of_follow {b : UInt8} {ranges : List (ℕ × ℕ)} (h : follow b = some ranges) :
    ∀ range ∈ ranges, ∀ d : UInt8, within range d = true → within continuation d = true := by
  have hranges : ∀ range ∈ ranges, 0x80 ≤ range.1 ∧ range.2 ≤ 0xBF := by
    unfold follow at h
    split_ifs at h <;> cases h <;> simp [continuation]
  intro range hr d hd
  obtain ⟨hlow, hhigh⟩ := hranges range hr
  rw [within_iff] at hd ⊢
  exact ⟨hlow.trans hd.1, hd.2.trans hhigh⟩

/-- A first octet of two. -/
private theorem follow_two {b : UInt8} (h : 0xC2 ≤ b.toNat) (h' : b.toNat < 0xE0) :
    follow b = some [continuation] := by
  rw [follow, if_neg (by omega), if_neg (by omega), if_pos (by omega)]

/-- A first octet of three asks for a second octet that leaves no shorter encoding
and no surrogate. -/
private theorem follow_three {b : UInt8} (h : 0xE0 ≤ b.toNat) (h' : b.toNat < 0xF0) :
    follow b = some [(if b.toNat = 0xE0 then 0xA0 else 0x80, if b.toNat = 0xED then 0x9F else 0xBF),
      continuation] := by
  rw [follow, if_neg (by omega), if_neg (by omega), if_neg (by omega)]
  split_ifs <;> first | rfl | omega

/-- A first octet of four asks for a second octet that leaves no shorter encoding
and no code point past the last one. -/
private theorem follow_four {b : UInt8} (h : 0xF0 ≤ b.toNat) (h' : b.toNat ≤ 0xF4) :
    follow b = some [(if b.toNat = 0xF0 then 0x90 else 0x80, if b.toNat = 0xF4 then 0x8F else 0xBF),
      continuation, continuation] := by
  rw [follow, if_neg (by omega), if_neg (by omega), if_neg (by omega), if_neg (by omega),
    if_neg (by omega), if_neg (by omega)]
  split_ifs <;> first | rfl | omega

theorem toNat_ofNat_of_lt {n : ℕ} (h : n < 256) : (UInt8.ofNat n).toNat = n := by
  rw [UInt8.toNat_ofNat']
  exact Nat.mod_eq_of_lt h

/-- **A character is encoded in the shape its first octet asks for.** -/
theorem exists_follow (c : Char) :
    ∃ b more ranges, String.utf8EncodeChar c = b :: more ∧ follow b = some ranges ∧
      List.Forall₂ (fun range d => within range d = true) ranges more ∧
      codePoint b more = c.toNat := by
  have hvalid : c.toNat < 0xd800 ∨ 0xdfff < c.toNat ∧ c.toNat < 0x110000 := c.valid
  have hval : c.val.toNat = c.toNat := rfl
  unfold String.utf8EncodeChar
  simp only [hval]
  split_ifs with h1 h2 h3
  · have hb := toNat_ofNat_of_lt (n := c.toNat) (by omega)
    refine ⟨_, _, _, rfl, ?_, .nil, ?_⟩
    · rw [follow, if_pos (by omega)]
    · simpa [codePoint, mark] using hb
  · have hb := toNat_ofNat_of_lt (n := c.toNat / 64 % 32 + 192) (by omega)
    have hd := toNat_ofNat_of_lt (n := c.toNat % 64 + 128) (by omega)
    refine ⟨_, _, _, rfl, follow_two (by omega) (by omega), .cons ?_ .nil, ?_⟩
    · rw [within_iff, continuation]; omega
    · simp only [codePoint, mark, List.foldl, List.length]
      omega
  · have hb := toNat_ofNat_of_lt (n := c.toNat / 4096 % 16 + 224) (by omega)
    have hd := toNat_ofNat_of_lt (n := c.toNat / 64 % 64 + 128) (by omega)
    have he := toNat_ofNat_of_lt (n := c.toNat % 64 + 128) (by omega)
    refine ⟨_, _, _, rfl, follow_three (by omega) (by omega), .cons ?_ (.cons ?_ .nil), ?_⟩
    · rw [within_iff, hb, hd]
      constructor <;> dsimp only <;> split_ifs <;> omega
    · rw [within_iff, continuation]; omega
    · simp only [codePoint, mark, List.foldl, List.length]
      omega
  · have hb := toNat_ofNat_of_lt (n := c.toNat / 262144 % 8 + 240) (by omega)
    have hd := toNat_ofNat_of_lt (n := c.toNat / 4096 % 64 + 128) (by omega)
    have he := toNat_ofNat_of_lt (n := c.toNat / 64 % 64 + 128) (by omega)
    have hf := toNat_ofNat_of_lt (n := c.toNat % 64 + 128) (by omega)
    refine ⟨_, _, _, rfl, follow_four (by omega) (by omega), .cons ?_ (.cons ?_ (.cons ?_ .nil)), ?_⟩
    · rw [within_iff, hb, hd]
      constructor <;> dsimp only <;> split_ifs <;> omega
    · rw [within_iff, continuation]; omega
    · rw [within_iff, continuation]; omega
    · simp only [codePoint, mark, List.foldl, List.length]
      omega

theorem toNat_ofNat_of_valid {n : ℕ} (h : n < 0xd800 ∨ 0xdfff < n ∧ n < 0x110000) :
    (Char.ofNat n).toNat = n := by
  rw [Char.ofNat, dif_pos h]
  rfl

theorem ofNat_eq_of_toNat_eq {n : ℕ} {b : UInt8} (h : n = b.toNat) : UInt8.ofNat n = b := by
  rw [h, UInt8.ofNat_toNat]

/-- The four shapes, by the number of octets. -/
private theorem follow_cases {b : UInt8} {ranges : List (ℕ × ℕ)} (h : follow b = some ranges) :
    (b.toNat < 0x80 ∧ ranges = []) ∨
      (0xC2 ≤ b.toNat ∧ b.toNat < 0xE0 ∧ ranges = [continuation]) ∨
      (0xE0 ≤ b.toNat ∧ b.toNat < 0xF0 ∧
        ranges = [(if b.toNat = 0xE0 then 0xA0 else 0x80, if b.toNat = 0xED then 0x9F else 0xBF),
          continuation]) ∨
      (0xF0 ≤ b.toNat ∧ b.toNat ≤ 0xF4 ∧
        ranges = [(if b.toNat = 0xF0 then 0x90 else 0x80, if b.toNat = 0xF4 then 0x8F else 0xBF),
          continuation, continuation]) := by
  by_cases h1 : b.toNat < 0x80
  · rw [follow, if_pos h1] at h
    exact Or.inl ⟨h1, (Option.some.inj h).symm⟩
  by_cases h2 : b.toNat < 0xC2
  · rw [follow, if_neg h1, if_pos h2] at h
    cases h
  by_cases h3 : b.toNat < 0xE0
  · rw [follow_two (by omega) h3] at h
    exact Or.inr (Or.inl ⟨by omega, h3, (Option.some.inj h).symm⟩)
  by_cases h4 : b.toNat < 0xF0
  · rw [follow_three (by omega) h4] at h
    exact Or.inr (Or.inr (Or.inl ⟨by omega, h4, (Option.some.inj h).symm⟩))
  by_cases h5 : b.toNat ≤ 0xF4
  · rw [follow_four (by omega) h5] at h
    exact Or.inr (Or.inr (Or.inr ⟨by omega, h5, (Option.some.inj h).symm⟩))
  · rw [follow, if_neg (by omega), if_neg (by omega), if_neg (by omega), if_neg (by omega),
      if_neg (by omega), if_neg (by omega), if_neg (by omega), if_neg (by omega),
      if_neg (by omega)] at h
    cases h

/-- **The shape a first octet asks for spells one character**, which is encoded so. -/
theorem encode_codePoint {b : UInt8} {ranges : List (ℕ × ℕ)} (h : follow b = some ranges)
    {more : List UInt8} (hmore : List.Forall₂ (fun range d => within range d = true) ranges more) :
    String.utf8EncodeChar (Char.ofNat (codePoint b more)) = b :: more := by
  rcases follow_cases h with ⟨hb, rfl⟩ | ⟨hb, hb', rfl⟩ | ⟨hb, hb', rfl⟩ | ⟨hb, hb', rfl⟩
  · cases hmore
    have hc : (Char.ofNat (codePoint b [])).val.toNat = b.toNat :=
      toNat_ofNat_of_valid (n := b.toNat) (by omega)
    unfold String.utf8EncodeChar
    simp only [hc]
    rw [if_pos (by omega), UInt8.ofNat_toNat]
  · obtain _ | ⟨hd, _ | _⟩ := hmore
    rename_i d
    rw [within_iff, continuation] at hd
    have hc : (Char.ofNat (codePoint b [d])).val.toNat =
        (b.toNat - 0xC0) * 64 + (d.toNat - 0x80) :=
      toNat_ofNat_of_valid (n := (b.toNat - 0xC0) * 64 + (d.toNat - 0x80)) (by omega)
    unfold String.utf8EncodeChar
    simp only [hc]
    rw [if_neg (by omega), if_pos (by omega), ofNat_eq_of_toNat_eq (b := b) (by omega),
      ofNat_eq_of_toNat_eq (b := d) (by omega)]
  · obtain _ | ⟨hd, _ | ⟨he, _ | _⟩⟩ := hmore
    rename_i d e
    rw [within_iff, continuation] at he
    rw [within_iff] at hd
    dsimp only at hd he
    have hc : (Char.ofNat (codePoint b [d, e])).val.toNat =
        ((b.toNat - 0xE0) * 64 + (d.toNat - 0x80)) * 64 + (e.toNat - 0x80) :=
      toNat_ofNat_of_valid (n := ((b.toNat - 0xE0) * 64 + (d.toNat - 0x80)) * 64 + (e.toNat - 0x80))
        (by split_ifs at hd <;> omega)
    have hd80 : 0x80 ≤ d.toNat ∧ d.toNat ≤ 0xBF ∧ (b.toNat = 0xE0 → 0xA0 ≤ d.toNat) := by
      split_ifs at hd <;> omega
    unfold String.utf8EncodeChar
    simp only [hc]
    rw [if_neg (by omega), if_neg (by omega), if_pos (by omega),
      ofNat_eq_of_toNat_eq (b := b) (by omega), ofNat_eq_of_toNat_eq (b := d) (by omega),
      ofNat_eq_of_toNat_eq (b := e) (by omega)]
  · obtain _ | ⟨hd, _ | ⟨he, _ | ⟨hf, _ | _⟩⟩⟩ := hmore
    rename_i d e f
    rw [within_iff, continuation] at he hf
    rw [within_iff] at hd
    dsimp only at hd he hf
    have hc : (Char.ofNat (codePoint b [d, e, f])).val.toNat =
        (((b.toNat - 0xF0) * 64 + (d.toNat - 0x80)) * 64 + (e.toNat - 0x80)) * 64 +
          (f.toNat - 0x80) :=
      toNat_ofNat_of_valid (n := (((b.toNat - 0xF0) * 64 + (d.toNat - 0x80)) * 64 +
        (e.toNat - 0x80)) * 64 + (f.toNat - 0x80)) (by split_ifs at hd <;> omega)
    have hd80 : 0x80 ≤ d.toNat ∧ d.toNat ≤ 0xBF ∧ (b.toNat = 0xF0 → 0x90 ≤ d.toNat) := by
      split_ifs at hd <;> omega
    unfold String.utf8EncodeChar
    simp only [hc]
    rw [if_neg (by omega), if_neg (by omega), if_neg (by omega),
      ofNat_eq_of_toNat_eq (b := b) (by omega), ofNat_eq_of_toNat_eq (b := d) (by omega),
      ofNat_eq_of_toNat_eq (b := e) (by omega), ofNat_eq_of_toNat_eq (b := f) (by omega)]

/-! ## Cutting octets into pieces -/

/-- The octets that stand in the ranges, as far as they do. -/
def taken : List (ℕ × ℕ) → List UInt8 → List UInt8
  | range :: ranges, d :: rest => if within range d then d :: taken ranges rest else []
  | _, _ => []

/-- The piece that starts with an octet: its character, or nothing where it is
ill-formed, and how many of the octets after the first one belong to it. -/
def piece (b : UInt8) (rest : List UInt8) : Option Char × ℕ :=
  match follow b with
  | none => (none, 0)
  | some ranges =>
    let more := taken ranges rest
    (if more.length = ranges.length then some (Char.ofNat (codePoint b more)) else none,
      more.length)

/-- The pieces of the octets left after skipping some. -/
def scanFrom : ℕ → List UInt8 → List (Option Char)
  | _, [] => []
  | k + 1, _ :: rest => scanFrom k rest
  | 0, b :: rest => (piece b rest).1 :: scanFrom (piece b rest).2 rest

/-- The pieces of the octets. -/
def scan (bytes : List UInt8) : List (Option Char) := scanFrom 0 bytes

theorem scanFrom_eq_drop (k : ℕ) (bytes : List UInt8) :
    scanFrom k bytes = scan (bytes.drop k) := by
  induction bytes generalizing k with
  | nil => simp [scan, scanFrom]
  | cons b rest ih =>
    cases k with
    | zero => rfl
    | succ k => rw [scanFrom, ih, List.drop_succ_cons]

theorem scan_cons (b : UInt8) (rest : List UInt8) :
    scan (b :: rest) = (piece b rest).1 :: scan (rest.drop (piece b rest).2) := by
  rw [scan, scanFrom, scanFrom_eq_drop]

/-- What is taken stands at the front. -/
theorem taken_isPrefix (ranges : List (ℕ × ℕ)) (rest : List UInt8) :
    taken ranges rest <+: rest := by
  induction ranges generalizing rest with
  | nil => cases rest <;> exact List.nil_prefix
  | cons range ranges ih =>
    cases rest with
    | nil => exact List.nil_prefix
    | cons d rest =>
      rw [taken]
      split
      · exact (List.prefix_cons_inj d).mpr (ih rest)
      · exact List.nil_prefix

/-- Octets in all of the ranges are taken whole, whatever stands after them. -/
theorem taken_append_of_forall₂ {ranges : List (ℕ × ℕ)} {more : List UInt8}
    (h : List.Forall₂ (fun range d => within range d = true) ranges more) (rest : List UInt8) :
    taken ranges (more ++ rest) = more := by
  induction h with
  | nil => cases rest <;> rfl
  | cons hd _ ih => rw [List.cons_append, taken, if_pos hd, ih]

/-- As many octets as there are ranges stand in all of them. -/
theorem forall₂_of_length_taken {ranges : List (ℕ × ℕ)} {rest : List UInt8}
    (h : (taken ranges rest).length = ranges.length) :
    List.Forall₂ (fun range d => within range d = true) ranges (taken ranges rest) := by
  induction ranges generalizing rest with
  | nil => cases rest <;> exact .nil
  | cons range ranges ih =>
    cases rest with
    | nil => simp [taken] at h
    | cons d rest =>
      rw [taken] at h ⊢
      split_ifs at h ⊢ with hd
      exact .cons hd (ih (by simpa using h))

/-! ## Texts and their encodings -/

/-- The encoding of a character is one piece. -/
theorem scan_encodeChar_append (c : Char) (rest : List UInt8) :
    scan (String.utf8EncodeChar c ++ rest) = some c :: scan rest := by
  obtain ⟨b, more, ranges, henc, hfollow, hmore, hcode⟩ := exists_follow c
  have htaken : taken ranges (more ++ rest) = more := taken_append_of_forall₂ hmore rest
  have hpiece : piece b (more ++ rest) = (some c, more.length) := by
    simp only [piece, hfollow, htaken, hmore.length_eq, if_pos, hcode, Char.ofNat_toNat]
  rw [henc, List.cons_append, scan_cons, hpiece, List.drop_left]

/-- **The pieces of an encoded text are its characters.** -/
theorem scan_encode (text : List Char) :
    scan (Text.encode text) = text.map some := by
  induction text with
  | nil => rfl
  | cons c text ih => rw [Text.encode_cons, scan_encodeChar_append, ih, List.map_cons]

/-- The octets of a piece with a character are the character's encoding. -/
theorem encode_of_piece {b : UInt8} {rest : List UInt8} {c : Char} {k : ℕ}
    (h : piece b rest = (some c, k)) : String.utf8EncodeChar c ++ rest.drop k = b :: rest := by
  unfold piece at h
  split at h
  · cases h
  · rename_i ranges hfollow
    obtain ⟨hc, rfl⟩ := Prod.mk.inj h
    split_ifs at hc with hlen
    rw [← Option.some.inj hc, encode_codePoint hfollow (forall₂_of_length_taken hlen),
      List.cons_append]
    conv_rhs => rw [← List.take_append_drop (taken ranges rest).length rest]
    rw [← List.prefix_iff_eq_take.mp (taken_isPrefix ranges rest)]

/-- **Nothing but an encoded text has only characters as pieces.** -/
theorem encode_of_scan {bytes : List UInt8} {text : List Char}
    (h : scan bytes = text.map some) : bytes = Text.encode text := by
  induction text generalizing bytes with
  | nil =>
    cases bytes with
    | nil => rfl
    | cons b rest => simp [scan_cons] at h
  | cons c text ih =>
    cases bytes with
    | nil => simp [scan, scanFrom] at h
    | cons b rest =>
      rw [scan_cons, List.map_cons, List.cons.injEq] at h
      have hrest := ih h.2
      rw [Text.encode_cons, ← hrest]
      exact (encode_of_piece (Prod.ext h.1 rfl)).symm

/-! ## Resynchronising -/

/-- Octets of which the first cannot continue a character. -/
def Boundary (bytes : List UInt8) : Prop := ∀ b ∈ bytes.head?, within continuation b = false

theorem taken_append_of_boundary {ranges : List (ℕ × ℕ)}
    (hranges : ∀ range ∈ ranges, ∀ d : UInt8, within range d = true → within continuation d = true)
    (a : List UInt8) {rest : List UInt8} (h : Boundary rest) :
    taken ranges (a ++ rest) = taken ranges a := by
  induction a generalizing ranges with
  | nil =>
    rw [List.nil_append]
    rcases ranges with _ | ⟨range, ranges⟩
    · cases rest <;> rfl
    · rcases rest with _ | ⟨d, rest⟩
      · rfl
      · have hd : within range d = false := by
          rw [Bool.eq_false_iff]
          intro hd
          have := hranges range (by simp) d hd
          rw [h d (by simp)] at this
          cases this
        simp [taken, hd]
  | cons d a ih =>
    rcases ranges with _ | ⟨range, ranges⟩
    · rfl
    · rw [List.cons_append, taken, taken, ih (fun r hr => hranges r (by simp [hr]))]

theorem piece_append_of_boundary (b : UInt8) (a : List UInt8) {rest : List UInt8}
    (h : Boundary rest) : piece b (a ++ rest) = piece b a := by
  unfold piece
  split
  · rfl
  · rename_i ranges hfollow
    rw [taken_append_of_boundary (continuation_of_follow hfollow) a h]

theorem length_piece_le (b : UInt8) (rest : List UInt8) : (piece b rest).2 ≤ rest.length := by
  unfold piece
  split
  · exact Nat.zero_le _
  · exact (taken_isPrefix _ rest).length_le

/-- **What stands before a boundary is cut as if nothing stood after it.** -/
theorem scan_append (a : List UInt8) {rest : List UInt8} (h : Boundary rest) :
    scan (a ++ rest) = scan a ++ scan rest := by
  have hfrom : ∀ (a : List UInt8) (k : ℕ), k ≤ a.length →
      scanFrom k (a ++ rest) = scanFrom k a ++ scan rest := by
    intro a
    induction a with
    | nil => intro k hk; simp [Nat.le_zero.mp hk, scan, scanFrom]
    | cons b a ih =>
      intro k hk
      cases k with
      | zero =>
        rw [List.cons_append, scanFrom, scanFrom, piece_append_of_boundary b a h,
          ih _ (length_piece_le b a), List.cons_append]
      | succ k => rw [List.cons_append, scanFrom, scanFrom, ih k (by simpa using hk)]
  exact hfrom a 0 (Nat.zero_le _)

/-! ## The two decoders -/

/-- Strict decoding: the characters of the pieces, refused where a piece has none. -/
def decode? (bytes : List UInt8) : Option (List Char) :=
  if (scan bytes).all Option.isSome then some (scan bytes).reduceOption else none

/-- Lenient decoding: U+FFFD for a piece without a character. -/
def decodeReplace (bytes : List UInt8) : List Char := (scan bytes).map (·.getD '\uFFFD')

/-- **Strict decoding accepts the encoded texts and gives them back.** -/
theorem decode?_eq_some_iff {bytes : List UInt8} {text : List Char} :
    decode? bytes = some text ↔ bytes = Text.encode text := by
  constructor
  · intro h
    unfold decode? at h
    split_ifs at h with hall
    have hmap : ∀ pieces : List (Option Char), pieces.all Option.isSome = true →
        pieces = pieces.reduceOption.map some := by
      intro pieces hp
      induction pieces with
      | nil => rfl
      | cons p pieces ih =>
        rw [List.all_cons, Bool.and_eq_true] at hp
        obtain ⟨c, rfl⟩ := Option.isSome_iff_exists.mp hp.1
        rw [List.reduceOption_cons_of_some, List.map_cons, ← ih hp.2]
    exact encode_of_scan (Option.some.inj h ▸ hmap _ hall)
  · rintro rfl
    rw [decode?, scan_encode, if_pos (by simp), List.reduceOption, List.filterMap_map]
    simp

theorem decodeReplace_append (a : List UInt8) {rest : List UInt8} (h : Boundary rest) :
    decodeReplace (a ++ rest) = decodeReplace a ++ decodeReplace rest := by
  rw [decodeReplace, scan_append a h, List.map_append]
  rfl

/-- **Lenient decoding gives an encoded text back.** -/
theorem decodeReplace_encode (text : List Char) :
    decodeReplace (Text.encode text) = text := by
  rw [decodeReplace, scan_encode, List.map_map]
  exact List.map_id' text

/-! ## ASCII characters -/

/-- The octet of an ASCII character cannot continue another character. -/
theorem boundary_ascii {c : Char} (h : c.toNat < 128) (rest : List UInt8) :
    Boundary (UInt8.ofNat c.toNat :: rest) := by
  intro b hb
  obtain rfl : UInt8.ofNat c.toNat = b := by simpa using hb
  have hc := toNat_ofNat_of_lt (n := c.toNat) (by omega)
  rw [Bool.eq_false_iff, ne_eq, within_iff, continuation]
  omega

/-- **An ASCII character is read where its octet stands**, whatever surrounds it. -/
theorem decodeReplace_append_ascii (a : List UInt8) {c : Char} (h : c.toNat < 128)
    (rest : List UInt8) :
    decodeReplace (a ++ UInt8.ofNat c.toNat :: rest) =
      decodeReplace a ++ c :: decodeReplace rest := by
  have hscan : scan (UInt8.ofNat c.toNat :: rest) = some c :: scan rest := by
    have := scan_encodeChar_append c rest
    rwa [Text.utf8EncodeChar_of_ascii h] at this
  rw [decodeReplace_append a (boundary_ascii h rest), decodeReplace, decodeReplace, hscan,
    List.map_cons]
  rfl

/-- A piece with an ASCII character starts with the character's octet. -/
theorem octet_of_piece {c : Char} (h : c.toNat < 128) {b : UInt8} {rest : List UInt8}
    (hpiece : (piece b rest).1 = some c) : UInt8.ofNat c.toNat = b := by
  have henc := encode_of_piece (Prod.ext hpiece rfl : piece b rest = (some c, (piece b rest).2))
  rw [Text.utf8EncodeChar_of_ascii h, List.singleton_append, List.cons.injEq] at henc
  exact henc.1

/-- A character that is read is no replacement. -/
private theorem eq_some_of_getD {c : Char} (h : c.toNat < 128) {p : Option Char}
    (hp : p.getD '\uFFFD' = c) : p = some c := by
  cases p with
  | none =>
    rw [Option.getD_none] at hp
    rw [← hp] at h
    exact absurd h (by decide)
  | some d => rw [← hp, Option.getD_some]

/-- A text starts with an ASCII character where the octets start with its octet. -/
theorem head?_decodeReplace_iff {c : Char} (h : c.toNat < 128) (bytes : List UInt8) :
    (decodeReplace bytes).head? = some c ↔ bytes.head? = some (UInt8.ofNat c.toNat) := by
  cases bytes with
  | nil => simp [decodeReplace, scan, scanFrom]
  | cons b rest =>
    rw [List.head?_cons, Option.some_inj]
    constructor
    · intro hc
      rw [decodeReplace, scan_cons, List.map_cons, List.head?_cons, Option.some_inj] at hc
      exact (octet_of_piece h (eq_some_of_getD h hc)).symm
    · rintro rfl
      have := decodeReplace_append_ascii [] h rest
      rw [List.nil_append] at this
      rw [this]
      rfl

theorem decodeReplace_intercalate {c : Char} (h : c.toNat < 128) (parts : List (List UInt8)) :
    decodeReplace ([UInt8.ofNat c.toNat].intercalate parts) =
      [c].intercalate (parts.map decodeReplace) := by
  induction parts with
  | nil => rfl
  | cons part parts ih =>
    rcases parts with _ | ⟨next, parts⟩
    · simp
    · rw [List.intercalate_cons_cons, List.append_assoc, List.singleton_append,
        decodeReplace_append_ascii part h, ih, List.map_cons, List.map_cons, List.map_cons,
        List.intercalate_cons_cons, List.append_assoc, List.singleton_append]

end Utf8
