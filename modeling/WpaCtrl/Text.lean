/-
# Python's `str` as a list of code points

A `str` without lone surrogates is a finite sequence of Unicode scalar values,
which is what `List Char` is.  This module gives the `str` methods a wire parser
is written with (`partition`, `rpartition`, `splitlines`, `strip`, `rstrip`,
`replace`, `encode`) their documented meaning on such lists, and proves how each
of them behaves on a concatenation, which is what every round trip needs:

* `partition_append`, `rpartition_append` : a separator that occurs once, or
  last, is where the text is cut;
* `splitlines_append_newline` : a line without a line boundary in it is split
  off whole, and `mem_splitlines` : no line ever contains a boundary;
* `encode` : UTF-8, with the ASCII characters as single octets.

`split` on one separator character is `List.splitOn`, and `join` is
`List.intercalate`.
-/
import Mathlib

/-- A `str` without lone surrogates. -/
abbrev Text : Type := List Char

instance : LawfulBEq Text := inferInstance

/-- A `bytes` object. -/
abbrev Bytes : Type := List UInt8

namespace Text

/-! ## Character classes -/

/-- The line boundaries of `str.splitlines`. -/
def lineBoundaries : List Char :=
  ['\n', '\x0b', '\x0c', '\r', '\x1c', '\x1d', '\x1e', '\u0085', '\u2028', '\u2029']

/-- A character at which `str.splitlines` ends a line. -/
def isLineBoundary (c : Char) : Bool := lineBoundaries.contains c

/-- The white space of `str.isspace`, which `str.strip` removes. -/
def whiteSpace : List Char :=
  ['\t', '\n', '\x0b', '\x0c', '\r', '\x1c', '\x1d', '\x1e', '\x1f', ' ', '\u0085',
    '\u00a0', '\u1680', '\u2000', '\u2001', '\u2002', '\u2003', '\u2004', '\u2005',
    '\u2006', '\u2007', '\u2008', '\u2009', '\u200a', '\u2028', '\u2029', '\u202f',
    '\u205f', '\u3000']

/-- A character that `str.strip` removes from both ends. -/
def isSpace (c : Char) : Bool := whiteSpace.contains c

/-- Printable ASCII, the octets `32..126`. -/
def isPrintable (c : Char) : Bool := 32 ≤ c.toNat && c.toNat ≤ 126

/-- No printable ASCII character ends a line. -/
theorem isLineBoundary_of_isPrintable {c : Char} (h : isPrintable c = true) :
    isLineBoundary c = false := by
  rw [Bool.eq_false_iff]
  intro hc
  simp only [isLineBoundary, lineBoundaries, List.contains_eq_mem, decide_eq_true_eq,
    List.mem_cons, List.not_mem_nil, or_false] at hc
  rcases hc with rfl | rfl | rfl | rfl | rfl | rfl | rfl | rfl | rfl | rfl <;>
    simp [isPrintable] at h

/-- Newline is a line boundary. -/
@[simp] theorem isLineBoundary_newline : isLineBoundary '\n' = true := by decide

/-! ## Cutting at a separator -/

/-- `text.partition(sep)` for a one-character separator: what stands before the
first occurrence, the separator itself, and what stands after it.  Without an
occurrence the first component is the whole text and the other two are empty. -/
def partition (sep : Char) (text : Text) : Text × Text × Text :=
  (text.takeWhile (· ≠ sep), if sep ∈ text then [sep] else [],
    (text.dropWhile (· ≠ sep)).tail)

/-- `text.rpartition(sep)` for a one-character separator, which cuts at the last
occurrence.  Without an occurrence the last component is the whole text. -/
def rpartition (sep : Char) (text : Text) : Text × Text × Text :=
  if sep ∈ text then
    ((text.reverse.dropWhile (· ≠ sep)).tail.reverse, [sep],
      (text.reverse.takeWhile (· ≠ sep)).reverse)
  else ([], [], text)

private theorem takeWhile_ne_append {sep : Char} {a : Text} (h : sep ∉ a) (b : Text) :
    (a ++ sep :: b).takeWhile (· ≠ sep) = a := by
  rw [List.takeWhile_append_of_pos (fun x hx => by
    simpa using fun hxs : x = sep => h (hxs ▸ hx))]
  simp

private theorem dropWhile_ne_append {sep : Char} {a : Text} (h : sep ∉ a) (b : Text) :
    (a ++ sep :: b).dropWhile (· ≠ sep) = sep :: b := by
  rw [List.dropWhile_append_of_pos (fun x hx => by
    simpa using fun hxs : x = sep => h (hxs ▸ hx))]
  simp

/-- The first occurrence is where `partition` cuts. -/
theorem partition_append {sep : Char} {a : Text} (h : sep ∉ a) (b : Text) :
    partition sep (a ++ sep :: b) = (a, [sep], b) := by
  rw [partition, takeWhile_ne_append h, dropWhile_ne_append h, if_pos (by simp)]
  rfl

/-- A text without the separator is left whole by `partition`. -/
theorem partition_of_notMem {sep : Char} {text : Text} (h : sep ∉ text) :
    partition sep text = (text, [], []) := by
  have hall : ∀ x ∈ text, decide (x ≠ sep) = true := fun x hx => by
    simpa using fun hxs : x = sep => h (hxs ▸ hx)
  rw [partition, if_neg h, List.takeWhile_eq_self_iff.mpr hall,
    List.dropWhile_eq_nil_iff.mpr hall]
  rfl

/-- The last occurrence is where `rpartition` cuts. -/
theorem rpartition_append {sep : Char} (a : Text) {b : Text} (h : sep ∉ b) :
    rpartition sep (a ++ sep :: b) = (a, [sep], b) := by
  have hrev : (a ++ sep :: b).reverse = b.reverse ++ sep :: a.reverse := by simp
  have hb : sep ∉ b.reverse := by simpa using h
  rw [rpartition, if_pos (by simp), hrev, takeWhile_ne_append hb, dropWhile_ne_append hb]
  simp

/-- The characters of a joined text are the separator and those of the pieces. -/
theorem mem_intercalate {sep c : Char} {pieces : List Text}
    (h : c ∈ [sep].intercalate pieces) : c = sep ∨ ∃ piece ∈ pieces, c ∈ piece := by
  induction pieces with
  | nil => simp at h
  | cons piece pieces ih =>
    rcases pieces with _ | ⟨next, pieces⟩
    · exact Or.inr ⟨piece, by simp, by simpa using h⟩
    · rw [List.intercalate_cons_cons] at h
      simp only [List.mem_append, List.mem_singleton] at h
      rcases h with (h | h) | h
      · exact Or.inr ⟨piece, by simp, h⟩
      · exact Or.inl h
      · rcases ih h with h | ⟨p, hp, hc⟩
        · exact Or.inl h
        · exact Or.inr ⟨p, by simp [hp], hc⟩

/-! ## Lines -/

/-- Put a character at the front of the first line. -/
def consLine (c : Char) : List Text → List Text
  | [] => [[c]]
  | line :: lines => (c :: line) :: lines

/-- `text.splitlines()`: the lines without their boundaries, a carriage return
and the newline after it being one boundary.  A boundary at the very end does
not open a further line. -/
def splitlines : Text → List Text
  | [] => []
  | '\r' :: '\n' :: text => [] :: splitlines text
  | c :: text => if isLineBoundary c then [] :: splitlines text else consLine c (splitlines text)

/-- A character that is no boundary goes to the front of the first line. -/
theorem splitlines_cons {c : Char} (h : isLineBoundary c = false) (text : Text) :
    splitlines (c :: text) = consLine c (splitlines text) := by
  rw [splitlines, if_neg (by simp [h])]
  rintro rest rfl -
  simp [isLineBoundary, lineBoundaries] at h

/-- A newline ends the line it stands on. -/
theorem splitlines_newline (text : Text) :
    splitlines ('\n' :: text) = [] :: splitlines text := by
  rw [splitlines] <;> simp

/-- A line without a boundary in it, followed by a newline, is split off whole. -/
theorem splitlines_append_newline {line : Text}
    (h : ∀ c ∈ line, isLineBoundary c = false) (text : Text) :
    splitlines (line ++ '\n' :: text) = line :: splitlines text := by
  induction line with
  | nil => exact splitlines_newline text
  | cons c line ih =>
    rw [List.cons_append, splitlines_cons (h c (by simp)),
      ih (fun d hd => h d (by simp [hd]))]
    rfl

/-- A non-empty text without a boundary is a single line. -/
theorem splitlines_of_noBoundary {line : Text}
    (h : ∀ c ∈ line, isLineBoundary c = false) (hne : line ≠ []) :
    splitlines line = [line] := by
  induction line with
  | nil => exact absurd rfl hne
  | cons c line ih =>
    rw [splitlines_cons (h c (by simp))]
    rcases List.eq_nil_or_concat line with rfl | hline
    · rfl
    · rw [ih (fun d hd => h d (by simp [hd])) (by rintro rfl; simp at hline)]
      rfl

/-- No line contains a line boundary. -/
theorem isLineBoundary_of_mem_splitlines (text : Text) :
    ∀ line ∈ splitlines text, ∀ c ∈ line, isLineBoundary c = false := by
  induction text using splitlines.induct with
  | case1 => simp [splitlines]
  | case2 text ih => simpa [splitlines] using ih
  | case3 c text hcrlf hc ih =>
    rw [splitlines, if_pos hc]
    · simpa using ih
    · exact hcrlf
  | case4 c text hcrlf hc ih =>
    rw [splitlines_cons (by simpa using hc)]
    rcases hlines : splitlines text with _ | ⟨line, lines⟩
    · simpa [consLine] using hc
    · rw [hlines] at ih
      simp only [consLine, List.mem_cons, forall_eq_or_imp] at ih ⊢
      exact ⟨⟨by simpa using hc, ih.1⟩, ih.2⟩

/-! ## Stripping -/

/-- Remove the characters of a class from both ends. -/
def stripBy (p : Char → Bool) (text : Text) : Text := (text.dropWhile p).rdropWhile p

/-- `text.strip()`. -/
def strip (text : Text) : Text := stripBy isSpace text

/-- `text.rstrip(c)` for a single character. -/
def rstrip (c : Char) (text : Text) : Text := text.rdropWhile (· == c)

/-- A text without a character of the class is left alone. -/
theorem stripBy_of_forall {p : Char → Bool} {text : Text} (h : ∀ c ∈ text, p c = false) :
    stripBy p text = text := by
  have hdrop : text.dropWhile p = text := by
    rcases text with _ | ⟨c, text⟩
    · rfl
    · rw [List.dropWhile_cons_of_neg (by simpa using h c (by simp))]
  rw [stripBy, hdrop, List.rdropWhile_eq_self_iff]
  intro hne
  simpa using h (text.getLast hne) (List.getLast_mem hne)

/-- A text with some visible character does not strip to nothing. -/
theorem strip_ne_nil {text : Text} {c : Char} (hc : c ∈ text) (hvis : isSpace c = false) :
    strip text ≠ [] := by
  intro h
  rw [strip, stripBy, List.rdropWhile_eq_nil_iff] at h
  have hdrop : text.dropWhile isSpace = [] := by
    rcases hd : text.dropWhile isSpace with _ | ⟨d, rest⟩
    · rfl
    · have hnot : isSpace d = false := by
        have := List.head_dropWhile_not isSpace (l := text) (by simp [hd])
        simpa [hd] using this
      rw [hd] at h
      simp [h d (by simp)] at hnot
  simp [List.dropWhile_eq_nil_iff.mp hdrop c hc] at hvis

/-- A text between two visible characters is left alone. -/
theorem strip_cons_append {c d : Char} (hc : isSpace c = false) (hd : isSpace d = false)
    (middle : Text) : strip (c :: middle ++ [d]) = c :: middle ++ [d] := by
  rw [strip, stripBy, List.cons_append, List.dropWhile_cons_of_neg (by simp [hc]),
    ← List.cons_append, List.rdropWhile_concat_neg _ _ _ (by simp [hd])]

/-- White space behind a text is stripped. -/
theorem strip_append_spaces (text : Text) {gap : Text} (hgap : ∀ c ∈ gap, isSpace c = true) :
    strip (text ++ gap) = strip text := by
  have hdrop : gap.dropWhile isSpace = [] := List.dropWhile_eq_nil_iff.mpr hgap
  have hback : ∀ front : Text, (front ++ gap).rdropWhile isSpace = front.rdropWhile isSpace := by
    intro front
    rw [List.rdropWhile, List.reverse_append, List.dropWhile_append,
      List.dropWhile_eq_nil_iff.mpr (by simpa using hgap)]
    rfl
  rw [strip, stripBy, List.dropWhile_append, hdrop]
  split_ifs with hempty
  · rw [strip, stripBy, List.isEmpty_iff.mp hempty]
  · rw [hback, strip, stripBy]

/-- The characters that `rstrip` takes are copies of one. -/
theorem exists_rstrip_append (c : Char) (text : Text) :
    ∃ k, text = rstrip c text ++ List.replicate k c := by
  refine ⟨(text.rtakeWhile (· == c)).length, ?_⟩
  have hall : text.rtakeWhile (· == c) = List.replicate (text.rtakeWhile (· == c)).length c := by
    rw [List.eq_replicate_iff]
    exact ⟨rfl, fun d hd => by simpa using List.mem_rtakeWhile_imp hd⟩
  rw [← hall, rstrip, List.rdropWhile, List.rtakeWhile, ← List.reverse_append,
    List.takeWhile_append_dropWhile, List.reverse_reverse]

/-- A newline is white space. -/
theorem strip_rstrip (text : Text) : strip (rstrip '\n' text) = strip text := by
  obtain ⟨k, hk⟩ := exists_rstrip_append '\n' text
  conv_rhs => rw [hk]
  refine (strip_append_spaces _ fun c hc => ?_).symm
  rw [(List.mem_replicate.mp hc).2]
  decide

/-- Trailing copies of the character go, whatever stands before them. -/
theorem rstrip_append_replicate (c : Char) (text : Text) (k : ℕ) :
    rstrip c (text ++ List.replicate k c) = rstrip c text := by
  induction k with
  | zero => simp
  | succ k ih =>
    rw [List.replicate_succ', ← List.append_assoc, rstrip,
      List.rdropWhile_concat_pos _ _ _ (by simp)]
    exact ih

/-- A text that does not end in the character is left alone. -/
theorem rstrip_of_getLast? {c : Char} {text : Text} (h : text.getLast? ≠ some c) :
    rstrip c text = text := by
  rw [rstrip, List.rdropWhile_eq_self_iff]
  intro hne
  rw [List.getLast?_eq_some_getLast hne] at h
  simpa using h

/-- Where something else stands in the back, the front is left alone. -/
theorem rstrip_append {c : Char} {b : Text} (h : ∃ d ∈ b, d ≠ c) (a : Text) :
    rstrip c (a ++ b) = a ++ rstrip c b := by
  induction b using List.reverseRecOn with
  | nil => simp at h
  | append_singleton b d ih =>
    unfold rstrip at ih ⊢
    rw [← List.append_assoc]
    by_cases hd : d = c
    · have hb : ∃ d ∈ b, d ≠ c := by
        obtain ⟨e, he, hne⟩ := h
        rcases List.mem_append.mp he with he | he
        · exact ⟨e, he, hne⟩
        · rw [List.mem_singleton.mp he] at hne
          exact absurd hd hne
      rw [List.rdropWhile_concat_pos _ _ _ (by simp [hd]),
        List.rdropWhile_concat_pos _ _ _ (by simp [hd]), ih hb]
    · rw [List.rdropWhile_concat_neg _ _ _ (by simp [hd]),
        List.rdropWhile_concat_neg _ _ _ (by simp [hd]), List.append_assoc]

/-- Another character in front stays in front. -/
theorem rstrip_cons {c d : Char} (h : d ≠ c) (text : Text) :
    rstrip c (d :: text) = d :: rstrip c text := by
  rcases em (∃ e ∈ text, e ≠ c) with hother | hsame
  · exact rstrip_append hother [d]
  · have hall : text = List.replicate text.length c := by
      rw [List.eq_replicate_iff]
      exact ⟨rfl, fun e he => not_not.mp fun hne => hsame ⟨e, he, hne⟩⟩
    have hfront : rstrip c [d] = [d] := rstrip_of_getLast? (by simpa using h)
    have hback := rstrip_append_replicate c [] text.length
    rw [hall, ← List.singleton_append, rstrip_append_replicate, hfront]
    rw [List.nil_append] at hback
    rw [hback]
    rfl

/-! ## Lines written one after another -/

/-- Each line followed by a newline, as a daemon prints them. -/
def unlines (lines : List Text) : Text := lines.flatMap (· ++ ['\n'])

@[simp] theorem unlines_cons (line : Text) (lines : List Text) :
    unlines (line :: lines) = line ++ '\n' :: unlines lines := by
  simp [unlines]

/-- Lines without a boundary in them are split off whole, whatever follows. -/
theorem splitlines_unlines_append {lines : List Text}
    (h : ∀ line ∈ lines, ∀ c ∈ line, isLineBoundary c = false) (text : Text) :
    splitlines (unlines lines ++ text) = lines ++ splitlines text := by
  induction lines with
  | nil => rfl
  | cons line lines ih =>
    rw [unlines_cons, List.append_assoc, List.cons_append,
      splitlines_append_newline (h line (by simp)), ih (fun l hl => h l (by simp [hl])),
      List.cons_append]

theorem splitlines_unlines {lines : List Text}
    (h : ∀ line ∈ lines, ∀ c ∈ line, isLineBoundary c = false) :
    splitlines (unlines lines) = lines := by
  have := splitlines_unlines_append h []
  rwa [List.append_nil, splitlines, List.append_nil] at this

/-- **Stripping the trailing newline loses no line**, the last one being non-empty. -/
theorem splitlines_rstrip_unlines {lines : List Text}
    (h : ∀ line ∈ lines, ∀ c ∈ line, isLineBoundary c = false)
    (hlast : ∀ line, lines.getLast? = some line → line ≠ []) :
    splitlines (rstrip '\n' (unlines lines)) = lines := by
  rcases List.eq_nil_or_concat lines with rfl | ⟨first, last, rfl⟩
  · rfl
  · have hne : last ≠ [] := hlast last (by simp)
    have hlastline : ∀ c ∈ last, isLineBoundary c = false := h last (by simp)
    have hend : (unlines first ++ last).getLast? ≠ some '\n' := by
      rw [List.getLast?_append_of_ne_nil _ hne, List.getLast?_eq_some_getLast hne]
      intro hc
      have := hlastline (last.getLast hne) (List.getLast_mem hne)
      rw [Option.some.inj hc, isLineBoundary_newline] at this
      exact Bool.noConfusion this
    have htext : unlines (first ++ [last]) =
        (unlines first ++ last) ++ List.replicate 1 '\n' := by
      simp [unlines]
    rw [List.concat_eq_append, htext, rstrip_append_replicate, rstrip_of_getLast? hend,
      splitlines_unlines_append (fun l hl => h l (by simp [hl])),
      splitlines_of_noBoundary hlastline hne]

/-! ## Replacing and encoding -/

/-- `text.replace(c, new)` for a single character. -/
def replace (c : Char) (new : Text) (text : Text) : Text :=
  text.flatMap fun d => if d = c then new else [d]

/-- `text.encode()`, the UTF-8 octets. -/
def encode (text : Text) : Bytes := text.flatMap String.utf8EncodeChar

@[simp] theorem encode_nil : encode [] = [] := rfl

@[simp] theorem encode_cons (c : Char) (text : Text) :
    encode (c :: text) = String.utf8EncodeChar c ++ encode text := rfl

@[simp] theorem encode_append (a b : Text) : encode (a ++ b) = encode a ++ encode b :=
  List.flatMap_append

/-- An ASCII character is one octet. -/
theorem utf8EncodeChar_of_ascii {c : Char} (h : c.toNat < 128) :
    String.utf8EncodeChar c = [UInt8.ofNat c.toNat] := by
  have hle : c.val.toNat ≤ 127 := Nat.lt_succ_iff.mp h
  simp only [String.utf8EncodeChar, if_pos hle]
  rfl

/-- The octet of an ASCII character is the character's code. -/
theorem toNat_ofNat_ascii {c : Char} (h : c.toNat < 128) : (UInt8.ofNat c.toNat).toNat = c.toNat := by
  rw [UInt8.toNat_ofNat']
  exact Nat.mod_eq_of_lt (by omega)

/-- ASCII characters differ as their octets do. -/
theorem eq_of_ofNat_ascii {c d : Char} (hc : c.toNat < 128) (hd : d.toNat < 128)
    (h : UInt8.ofNat c.toNat = UInt8.ofNat d.toNat) : c = d := by
  have hval := congrArg UInt8.toNat h
  rw [toNat_ofNat_ascii hc, toNat_ofNat_ascii hd] at hval
  exact Char.toNat_inj.mp hval

end Text
