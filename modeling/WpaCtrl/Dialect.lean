/-
# The printf dialect, octet by octet

The daemon undoes its printf escaping on octets; `printf_decode` does it on characters
and encodes what is left over.  Here the dialect is read octet by octet, and the two
readings are compared on every text.

* `Digits.digits_encode` : the digits in front are the same, as characters and as octets;
* `escape_head` : the first octet of a character decides what it is behind a backslash;
* `printfDecode_eq_dialect` : both readings of a text give the same octets.
-/
import WpaCtrl.Ssid

open Text

namespace WpaCtrl

/-! ## The decoder of the daemon -/

namespace Dialect

/-- The octet a named escape stands for. -/
def named? (octet : UInt8) : Option UInt8 :=
  if octet = 0x5c then some 0x5c        -- backslash
  else if octet = 0x22 then some 0x22   -- quote
  else if octet = 0x6e then some 0x0a   -- n
  else if octet = 0x72 then some 0x0d   -- r
  else if octet = 0x74 then some 0x09   -- t
  else if octet = 0x65 then some 0x1b   -- e
  else none

/-- The value of a hexadecimal digit in either case. -/
def hexDigit? (octet : UInt8) : Option ℕ :=
  if 0x30 ≤ octet ∧ octet ≤ 0x39 then some (octet.toNat - 0x30)
  else if 0x41 ≤ octet ∧ octet ≤ 0x46 then some (octet.toNat - 0x41 + 10)
  else if 0x61 ≤ octet ∧ octet ≤ 0x66 then some (octet.toNat - 0x61 + 10)
  else none

/-- The value of an octal digit. -/
def octalDigit? (octet : UInt8) : Option ℕ :=
  if 0x30 ≤ octet ∧ octet ≤ 0x37 then some (octet.toNat - 0x30) else none

/-- The values of the digits in front, as many as there are, up to a limit. -/
def digits (digit? : UInt8 → Option ℕ) : ℕ → Bytes → List ℕ
  | 0, _ => []
  | _ + 1, [] => []
  | limit + 1, octet :: octets =>
    match digit? octet with
    | some digit => digit :: digits digit? limit octets
    | none => []

/-- The number some digits spell. -/
def number (base : ℕ) (digits : List ℕ) : ℕ :=
  digits.foldl (fun value digit => value * base + digit) 0

/-- The decoder, from left to right. -/
def decode : Bytes → Bytes
  | [] => []
  | octet :: octets =>
    if octet ≠ 0x5c then octet :: decode octets
    else match octets with
      | [] => []
      | escape :: rest =>
        match named? escape with
        | some named => named :: decode rest
        | none =>
          if escape = 0x78 then
            let hex := digits hexDigit? 2 rest
            (if hex = [] then [] else [UInt8.ofNat (number 16 hex)]) ++
              decode (rest.drop hex.length)
          else
            let octal := digits octalDigit? 3 (escape :: rest)
            if octal = [] then escape :: decode rest
            -- `UInt8.ofNat` is the value mod 256
            else UInt8.ofNat (number 8 octal) :: decode (rest.drop (octal.length - 1))
termination_by octets => octets.length
decreasing_by all_goals simp_wf <;> omega

/-! ## Octets and characters -/

/-- An octet outside ASCII. -/
theorem wide_of_mem_utf8EncodeChar {c : Char} (h : 128 ≤ c.toNat) {octet : UInt8}
    (hmem : octet ∈ String.utf8EncodeChar c) : 128 ≤ octet.toNat := by
  have hbits : ∀ n m, 128 ≤ m → m ≤ 256 - n → n ≠ 0 → ∀ v, 128 ≤ (UInt8.ofNat (v % n + m)).toNat := by
    intro n m hm hle hn v
    have hlt : v % n < n := Nat.mod_lt v (Nat.pos_of_ne_zero hn)
    rw [UInt8.toNat_ofNat', Nat.mod_eq_of_lt (by omega)]
    omega
  have hval : ¬ c.val.toNat ≤ 0x7f := by
    show ¬ c.toNat ≤ 0x7f
    omega
  simp only [String.utf8EncodeChar, if_neg hval] at hmem
  split_ifs at hmem <;> simp only [List.mem_cons, List.not_mem_nil, or_false] at hmem
  · rcases hmem with rfl | rfl <;> apply hbits <;> decide
  · rcases hmem with rfl | rfl | rfl <;> apply hbits <;> decide
  · rcases hmem with rfl | rfl | rfl | rfl <;> apply hbits <;> decide

/-- Outside ASCII is above everything in it. -/
theorem not_le_of_wide {octet n : UInt8} (h : 128 ≤ octet.toNat) (hn : n.toNat < 128) :
    ¬ octet ≤ n := by
  rw [UInt8.le_iff_toNat_le]
  omega

/-- A class of digits, as characters and as octets. -/
structure Digits (isDigit : Char → Bool) (value : Char → ℕ) (digit? : UInt8 → Option ℕ) : Prop where
  ascii : ∀ n < 128, digit? (UInt8.ofNat n) =
    if isDigit (Char.ofNat n) then some (value (Char.ofNat n)) else none
  isDigit_ascii : ∀ c, isDigit c = true → c.toNat < 128
  wide : ∀ octet : UInt8, 128 ≤ octet.toNat → digit? octet = none

theorem hexDigits : Digits isHexDigit hexValue hexDigit? where
  ascii := by decide +kernel
  isDigit_ascii c h := by
    have hprint := (isPrintable_of_isHexDigit h).1
    simp only [isPrintable, Bool.and_eq_true, decide_eq_true_eq] at hprint
    omega
  wide octet h := by
    have hle : ∀ n : UInt8, n.toNat < 128 → ¬ octet ≤ n := fun n => not_le_of_wide h
    simp [hexDigit?, hle]

theorem octalDigits :
    Digits isOctalDigit (fun c => c.toNat - '0'.toNat) octalDigit? where
  ascii := by decide +kernel
  isDigit_ascii c h := by
    simp only [isOctalDigit, Bool.and_eq_true, decide_eq_true_eq, Char.le_def,
      UInt32.le_iff_toNat_le] at h
    exact lt_of_le_of_lt h.2 (by decide)
  wide octet h := by
    have hle : ∀ n : UInt8, n.toNat < 128 → ¬ octet ≤ n := fun n => not_le_of_wide h
    simp [octalDigit?, hle]

section

variable {isDigit : Char → Bool} {value : Char → ℕ} {digit? : UInt8 → Option ℕ}

/-- What the first octet of a character says of it. -/
theorem Digits.digit?_head (h : Digits isDigit value digit?) (c : Char) {octet : UInt8}
    {octets : Bytes} (hc : String.utf8EncodeChar c = octet :: octets) :
    digit? octet = if isDigit c then some (value c) else none := by
  rcases Nat.lt_or_ge c.toNat 128 with hascii | hwide
  · rw [utf8EncodeChar_of_ascii hascii] at hc
    rw [← (List.cons.inj hc).1, h.ascii _ hascii, Char.ofNat_toNat]
  · have hno : isDigit c = false := by
      rw [Bool.eq_false_iff]
      intro hdigit
      have := h.isDigit_ascii c hdigit
      omega
    rw [h.wide octet (wide_of_mem_utf8EncodeChar hwide (hc ▸ List.mem_cons_self)), hno]
    rfl

/-- **The digits in front are the same**, read as characters and as octets. -/
theorem Digits.digits_encode (h : Digits isDigit value digit?) (limit : ℕ) (text : Text) :
    digits digit? limit (encode text) = (takeDigits limit isDigit text).map value := by
  induction limit generalizing text with
  | zero => rfl
  | succ limit ih =>
    rcases text with _ | ⟨c, text⟩
    · rfl
    · obtain ⟨octet, octets, hc⟩ := List.exists_cons_of_ne_nil (String.utf8EncodeChar_ne_nil (c := c))
      have hhead := h.digit?_head c hc
      rw [encode_cons, hc, List.cons_append, digits, hhead]
      cases hdigit : isDigit c with
      | false => simp [takeDigits, hdigit]
      | true =>
        rw [utf8EncodeChar_of_ascii (h.isDigit_ascii c hdigit)] at hc
        rw [← (List.cons.inj hc).2, List.nil_append]
        simp only [if_true, ih]
        simp [takeDigits, hdigit]

/-- Behind its digits, both readings go on at the same place. -/
theorem Digits.drop_encode (h : Digits isDigit value digit?) (limit : ℕ) (text : Text) :
    (encode text).drop (takeDigits limit isDigit text).length =
      encode (text.drop (takeDigits limit isDigit text).length) := by
  have hprefix : takeDigits limit isDigit text <+: text :=
    (List.takeWhile_prefix _).trans (List.take_prefix limit text)
  have hlength : ∀ digits : Text, (∀ c ∈ digits, isDigit c = true) →
      (encode digits).length = digits.length := by
    intro digits hdigits
    induction digits with
    | nil => rfl
    | cons c digits ih =>
      rw [encode_cons, utf8EncodeChar_of_ascii (h.isDigit_ascii c (hdigits c (by simp))),
        List.singleton_append, List.length_cons, ih fun d hd => hdigits d (by simp [hd]),
        List.length_cons]
  have hdigits : ∀ c ∈ takeDigits limit isDigit text, isDigit c = true := fun c hc =>
    List.mem_takeWhile_imp hc
  obtain ⟨rest, hrest⟩ := hprefix
  generalize takeDigits limit isDigit text = digits at hrest hdigits
  rw [← hrest, encode_append, ← hlength digits hdigits, List.drop_left, hlength digits hdigits,
    List.drop_left]

end

/-! ## The two readings -/

/-- The backslash is in no other character. -/
theorem slash_notMem {c : Char} (h : c ≠ '\\') : 0x5c ∉ String.utf8EncodeChar c := by
  intro hslash
  rcases Nat.lt_or_ge c.toNat 128 with hascii | hwide
  · rw [utf8EncodeChar_of_ascii hascii, List.mem_singleton] at hslash
    exact h (eq_of_ofNat_ascii hascii (by decide) hslash.symm)
  · exact absurd (wide_of_mem_utf8EncodeChar hwide hslash) (by decide)

/-- The first octet of a character decides what it is behind a backslash. -/
theorem escape_head (c : Char) {octet : UInt8} {octets : Bytes}
    (hc : String.utf8EncodeChar c = octet :: octets) :
    named? octet = printfEscape? c ∧ (octet = 0x78 ↔ c = 'x') := by
  rcases Nat.lt_or_ge c.toNat 128 with hascii | hwide
  · have hall : ∀ n < 128, named? (UInt8.ofNat n) = printfEscape? (Char.ofNat n) ∧
        (UInt8.ofNat n = 0x78 ↔ Char.ofNat n = 'x') := by
      decide +kernel
    rw [utf8EncodeChar_of_ascii hascii] at hc
    rw [← (List.cons.inj hc).1]
    simpa only [Char.ofNat_toNat] using hall c.toNat hascii
  · have hne : ∀ n : UInt8, n.toNat < 128 → octet ≠ n := by
      rintro n hn rfl
      have := wide_of_mem_utf8EncodeChar hwide (hc ▸ List.mem_cons_self)
      omega
    have hchar : ∀ d : Char, d.toNat < 128 → c ≠ d := by
      rintro d hd rfl
      omega
    refine ⟨?_, iff_of_false (hne 0x78 (by decide)) (hchar 'x' (by decide))⟩
    have hnone : printfEscape? c = none := by
      unfold printfEscape?
      split <;> first | rfl | exact absurd rfl (hchar _ (by decide))
    rw [hnone]
    simp [named?, hne]

/-- A named escape is ASCII. -/
theorem ascii_of_printfEscape? {c : Char} {octet : UInt8} (h : printfEscape? c = some octet) :
    c.toNat < 128 := by
  unfold printfEscape? at h
  split at h <;> first | decide | cases h

/-! ## Decoding one escape at a time -/

/-- Octets without a backslash are passed through. -/
theorem decode_plain {front : Bytes} (h : 0x5c ∉ front) (octets : Bytes) :
    decode (front ++ octets) = front ++ decode octets := by
  induction front with
  | nil => rfl
  | cons octet front ih =>
    simp only [List.mem_cons, not_or] at h
    rw [List.cons_append, decode.eq_def]
    simp only [if_pos (Ne.symm h.1), ih h.2, List.cons_append]

theorem decode_named {escape octet : UInt8} (h : named? escape = some octet) (rest : Bytes) :
    decode (0x5c :: escape :: rest) = octet :: decode rest := by
  rw [decode, if_neg (by decide)]
  simp only [h]

theorem decode_hex (rest : Bytes) : decode (0x5c :: 0x78 :: rest) =
    (if digits hexDigit? 2 rest = [] then []
      else [UInt8.ofNat (number 16 (digits hexDigit? 2 rest))]) ++
      decode (rest.drop (digits hexDigit? 2 rest).length) := by
  have hnamed : named? 0x78 = none := by decide
  rw [decode, if_neg (by decide)]
  simp only [hnamed, if_true]

/-- Behind a backslash, what is neither named nor an `x`. -/
theorem decode_octal {escape : UInt8} (hnamed : named? escape = none) (hx : escape ≠ 0x78)
    (rest : Bytes) : decode (0x5c :: escape :: rest) =
      if digits octalDigit? 3 (escape :: rest) = [] then escape :: decode rest
      else UInt8.ofNat (number 8 (digits octalDigit? 3 (escape :: rest))) ::
        decode (rest.drop ((digits octalDigit? 3 (escape :: rest)).length - 1)) := by
  rw [decode, if_neg (by decide)]
  simp only [hnamed, if_neg hx]

end Dialect

open Dialect in
/-- **`printf_decode` reads as the daemon does.**  On every text the decoder on characters
gives what the decoder on octets gives on the UTF-8 of the text. -/
theorem printfDecode_eq_dialect (text : Text) : printfDecode text = decode (encode text) := by
  have hslash : ∀ {c : Char} (text : Text), ¬ c ≠ '\\' →
      encode (c :: text) = 0x5c :: encode text := by
    intro c text hc
    rw [not_ne_iff.mp hc]
    rfl
  fun_induction printfDecode text with
  | case1 => rw [encode_nil, decode]
  | case2 char text hplain ih =>
    rw [encode_cons, Dialect.decode_plain (slash_notMem hplain), ih]
  | case3 char hchar =>
    rw [hslash [] hchar, encode_nil, decode, if_neg (by decide)]
  | case4 char hchar escape rest octet hnamed ih =>
    have hescape := utf8EncodeChar_of_ascii (ascii_of_printfEscape? hnamed)
    rw [hslash _ hchar, encode_cons, hescape, List.singleton_append,
      decode_named ((escape_head escape hescape).1.trans hnamed), ih]
  | case5 char hchar rest digits hnone ih =>
    have hencode : encode ('x' :: rest) = 0x78 :: encode rest := rfl
    have hdigits := hexDigits.digits_encode 2 rest
    have hnumber : number 16 (digits.map hexValue) = hexNumber digits := by
      rw [number, List.foldl_map, hexNumber]
    rw [hslash _ hchar, hencode, decode_hex, hdigits, hnumber, List.length_map,
      hexDigits.drop_encode, ih]
    simp only [List.map_eq_nil_iff]
    rfl
  | case6 char hchar escape rest hnone hx hoctal digits ih =>
    have hescape := utf8EncodeChar_of_ascii (octalDigits.isDigit_ascii escape hoctal)
    obtain ⟨hnamed, hfirst⟩ := escape_head escape hescape
    have hencode : encode (escape :: rest) = UInt8.ofNat escape.toNat :: encode rest := by
      rw [encode_cons, hescape, List.singleton_append]
    have hdigits : Dialect.digits octalDigit? 3 (encode (escape :: rest)) =
        digits.map fun c => c.toNat - '0'.toNat := octalDigits.digits_encode 3 (escape :: rest)
    have hdrop : (encode (escape :: rest)).drop digits.length =
        encode ((escape :: rest).drop digits.length) := octalDigits.drop_encode 3 (escape :: rest)
    have hnumber : number 8 (digits.map fun c => c.toNat - '0'.toNat) = octalNumber digits := by
      rw [number, List.foldl_map, octalNumber]
    -- the escape is the first of the digits
    obtain ⟨others, hothers⟩ : ∃ others, digits = escape :: others := by
      simp [digits, takeDigits, hoctal]
    rw [hencode] at hdigits hdrop
    rw [hslash _ hchar, hencode, decode_octal (hnamed.trans hnone) (mt hfirst.mp hx), hdigits,
      if_neg (by simp [hothers]), hnumber, ih, ← hdrop, List.length_map]
    simp only [hothers, List.length_cons, List.drop_succ_cons, Nat.add_sub_cancel]
  | case7 char hchar escape rest hnone hx hoctal ih =>
    obtain ⟨first, octets, hescape⟩ :=
      List.exists_cons_of_ne_nil (String.utf8EncodeChar_ne_nil (c := escape))
    obtain ⟨hnamed, hfirst⟩ := escape_head escape hescape
    have hdigits : digits octalDigit? 3 (first :: (octets ++ encode rest)) = [] := by
      rw [digits, octalDigits.digit?_head escape hescape, if_neg hoctal]
    have hne : escape ≠ '\\' := by
      rintro rfl
      cases hnone
    have hrest : 0x5c ∉ octets := fun hmem =>
      slash_notMem hne (hescape ▸ List.mem_cons_of_mem _ hmem)
    -- its first octet is the escape, and the others are plain
    rw [hslash _ hchar, encode_cons, hescape, List.cons_append, List.cons_append,
      decode_octal (hnamed.trans hnone) (mt hfirst.mp hx), if_pos hdigits, decode_plain hrest, ih]

end WpaCtrl
