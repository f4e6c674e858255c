import Mathlib.Data.List.TakeWhile
import Rmcp.Session.Worker

/-!
# Event ids as text

`Display` and `FromStr` of `EventId`: the number of the message, and after a slash the id of
its channel when the channel is not the common one. The reason that the integer parser gives
for an error is left out.

Results:
1. `parseUnsigned_toDigits`: the integer parser reads what is written.
2. `EventId.fromStr_display`: an event id is read back from its text.
3. `parseUnsigned_eq_some`: the texts that the integer parser accepts.
4. `EventId.fromStr_format`: the texts that are read as an event id, and what they are read as.
-/

namespace Rmcp

/-- The digits after an optional plus sign. -/
def stripPlus : List Char → List Char
  | '+' :: rest => rest
  | text => text

/-- `u64::from_str`: an optional plus sign and at least one digit, with a value in range. -/
def parseUnsigned (text : List Char) : Option UInt64 :=
  let digits := stripPlus text
  if digits = [] ∨ ¬ digits.all Char.isDigit then none
  else
    let n := Nat.ofDigitChars 10 digits 0
    if n < UInt64.size then some (UInt64.ofNat n) else none

/-- `str::split_once`. -/
def splitOnce (sep : Char) (text : List Char) : Option (List Char × List Char) :=
  match text.dropWhile (· ≠ sep) with
  | [] => none
  | _ :: rest => some (text.takeWhile (· ≠ sep), rest)

theorem isDigit_of_mem_toDigits {n : Nat} {c : Char} (hc : c ∈ Nat.toDigits 10 n) : c.isDigit :=
  Nat.isDigit_of_mem_toDigits (by decide) (by decide) hc

theorem stripPlus_toDigits (n : Nat) : stripPlus (Nat.toDigits 10 n) = Nat.toDigits 10 n := by
  unfold stripPlus
  split
  · next rest heq =>
    have hdigit := isDigit_of_mem_toDigits (heq ▸ List.mem_cons_self)
    exact absurd hdigit (by decide)
  · rfl

/-- What is written as a number is read as that number. -/
theorem parseUnsigned_toDigits (n : UInt64) :
    parseUnsigned (Nat.toDigits 10 n.toNat) = some n := by
  have hdigits : (Nat.toDigits 10 n.toNat).all Char.isDigit :=
    List.all_eq_true.mpr fun _ => isDigit_of_mem_toDigits
  have hvalue : Nat.ofDigitChars 10 (Nat.toDigits 10 n.toNat) 0 = n.toNat :=
    Nat.ofDigitChars_ten_toDigits
  have hsize : n.toNat < UInt64.size := n.toNat_lt
  simp [parseUnsigned, stripPlus_toDigits, Nat.toDigits_ne_nil, hdigits, hvalue, hsize]

/-- The text is a decimal number with the value `n`: an optional plus sign, and at least one
digit. -/
def IsDecimal (text : List Char) (n : UInt64) : Prop :=
  ∃ sign digits, text = sign ++ digits ∧ (sign = [] ∨ sign = ['+']) ∧ digits ≠ [] ∧
    (∀ c ∈ digits, c.isDigit) ∧ Nat.ofDigitChars 10 digits 0 = n.toNat

theorem stripPlus_eq (text : List Char) :
    ∃ sign, text = sign ++ stripPlus text ∧ (sign = [] ∨ sign = ['+']) := by
  unfold stripPlus
  split
  · next rest => exact ⟨['+'], rfl, .inr rfl⟩
  · exact ⟨[], rfl, .inl rfl⟩

/-- Digits carry no sign of their own. -/
theorem stripPlus_sign {sign digits : List Char} (hsign : sign = [] ∨ sign = ['+'])
    (hdigits : ∀ c ∈ digits, c.isDigit) : stripPlus (sign ++ digits) = digits := by
  rcases hsign with rfl | rfl
  · rw [List.nil_append]
    unfold stripPlus
    split
    · next rest => exact absurd (hdigits '+' List.mem_cons_self) (by decide)
    · rfl
  · rfl

theorem parseUnsigned_eq_some {text : List Char} {n : UInt64} :
    parseUnsigned text = some n ↔ IsDecimal text n := by
  constructor
  · intro h
    unfold parseUnsigned at h
    simp only [] at h
    split at h
    · cases h
    · next hdigits =>
      rw [not_or, not_not, List.all_eq_true] at hdigits
      split at h
      · next hsize =>
        obtain ⟨sign, htext, hsign⟩ := stripPlus_eq text
        refine ⟨sign, stripPlus text, htext, hsign, hdigits.1, hdigits.2, ?_⟩
        rw [← Option.some.inj h]
        exact (UInt64.toNat_ofNat_of_lt' hsize).symm
      · cases h
  · rintro ⟨sign, digits, rfl, hsign, hne, hdigits, hvalue⟩
    have hall : digits.all Char.isDigit := List.all_eq_true.mpr hdigits
    have hsize : n.toNat < UInt64.size := n.toNat_lt
    simp [parseUnsigned, stripPlus_sign hsign hdigits, hne, hall, hvalue, hsize]

theorem splitOnce_of_not_mem {sep : Char} {text : List Char} (h : sep ∉ text) :
    splitOnce sep text = none := by
  have hdrop : text.dropWhile (· ≠ sep) = [] := by
    rw [List.dropWhile_eq_nil_iff]
    intro c hc
    have hne : c ≠ sep := fun heq => h (heq ▸ hc)
    simpa using hne
  simp only [splitOnce, hdrop]

theorem splitOnce_append {sep : Char} {before after : List Char} (h : sep ∉ before) :
    splitOnce sep (before ++ sep :: after) = some (before, after) := by
  have hall : ∀ c ∈ before, decide (c ≠ sep) = true := by
    intro c hc
    have hne : c ≠ sep := fun heq => h (heq ▸ hc)
    simpa using hne
  have hdrop : (before ++ sep :: after).dropWhile (· ≠ sep) = sep :: after := by
    rw [List.dropWhile_append_of_pos hall]
    simp
  have htake : (before ++ sep :: after).takeWhile (· ≠ sep) = before := by
    rw [List.takeWhile_append_of_pos hall]
    simp
  simp only [splitOnce, hdrop, htake]

theorem splitOnce_eq_some {sep : Char} {text before after : List Char}
    (h : splitOnce sep text = some (before, after)) : text = before ++ sep :: after := by
  unfold splitOnce at h
  split at h
  · cases h
  · next c rest hdrop =>
    cases h
    obtain rfl : c = sep := by
      have hhead := List.head?_dropWhile_not (· ≠ sep) text
      rw [hdrop] at hhead
      simpa using hhead
    rw [← hdrop, List.takeWhile_append_dropWhile]

namespace Session

inductive EventIdParseError
  | invalidIndex
deriving DecidableEq

namespace EventId

/-- The text of an event id, as `Display` writes it. -/
def display (e : EventId) : String :=
  match e.httpRequestId with
  | some httpRequestId => e.index.toNat.repr ++ "/" ++ httpRequestId.toNat.repr
  | none => e.index.toNat.repr

/-- Both parts report a bad number in the same way. -/
def fromStr (s : String) : Except EventIdParseError EventId :=
  match splitOnce '/' s.toList with
  | some (index, requestId) =>
    match parseUnsigned index, parseUnsigned requestId with
    | some index, some requestId => .ok ⟨some requestId, index⟩
    | _, _ => .error .invalidIndex
  | none =>
    match parseUnsigned s.toList with
    | some index => .ok ⟨none, index⟩
    | none => .error .invalidIndex

theorem slash_not_mem_toDigits (n : Nat) : '/' ∉ Nat.toDigits 10 n := fun h =>
  absurd (isDigit_of_mem_toDigits h) (by decide)

theorem fromStr_display (e : EventId) : fromStr e.display = .ok e := by
  obtain ⟨httpRequestId, index⟩ := e
  have hslash := slash_not_mem_toDigits index.toNat
  cases httpRequestId with
  | none =>
    have htext : (display ⟨none, index⟩).toList = Nat.toDigits 10 index.toNat := by
      simp [display]
    simp only [fromStr, htext, splitOnce_of_not_mem hslash, parseUnsigned_toDigits]
  | some httpRequestId =>
    have htext : (display ⟨some httpRequestId, index⟩).toList =
        Nat.toDigits 10 index.toNat ++ '/' :: Nat.toDigits 10 httpRequestId.toNat := by
      simp [display]
    simp only [fromStr, htext, splitOnce_append hslash, parseUnsigned_toDigits]

/-- The text of an event id: a number, or two with a slash between them. -/
inductive IsText (s : String) : EventId → Prop
  | common {index : UInt64} : IsDecimal s.toList index → IsText s ⟨none, index⟩
  | requestWise {index httpRequestId : UInt64} {before after : List Char} :
      s.toList = before ++ '/' :: after → IsDecimal before index →
      IsDecimal after httpRequestId → IsText s ⟨some httpRequestId, index⟩

theorem slash_not_mem_decimal {text : List Char} {n : UInt64} (h : IsDecimal text n) :
    '/' ∉ text := by
  obtain ⟨sign, digits, rfl, hsign, -, hdigits, -⟩ := h
  intro hslash
  rcases List.mem_append.mp hslash with hslash | hslash
  · rcases hsign with rfl | rfl <;> simp at hslash
  · exact absurd (hdigits _ hslash) (by decide)

theorem fromStr_eq_ok {s : String} {e : EventId} : fromStr s = .ok e ↔ IsText s e := by
  constructor
  · intro h
    unfold fromStr at h
    split at h
    · next before after hsplit =>
      split at h
      · next index httpRequestId hindex hrequest =>
        cases h
        exact .requestWise (splitOnce_eq_some hsplit) (parseUnsigned_eq_some.mp hindex)
          (parseUnsigned_eq_some.mp hrequest)
      · cases h
    · split at h
      · next index hindex =>
        cases h
        exact .common (parseUnsigned_eq_some.mp hindex)
      · cases h
  · intro h
    cases h with
    | common hindex =>
      simp only [fromStr, splitOnce_of_not_mem (slash_not_mem_decimal hindex),
        parseUnsigned_eq_some.mpr hindex]
    | requestWise htext hindex hrequest =>
      -- the number before the slash has none of its own, so the text is cut at this one
      simp only [fromStr, htext, splitOnce_append (slash_not_mem_decimal hindex),
        parseUnsigned_eq_some.mpr hindex, parseUnsigned_eq_some.mpr hrequest]

/-- An event id is read back from its text; exactly the texts of event ids are read, and every
other one is an error. -/
theorem fromStr_format :
    (∀ e : EventId, fromStr e.display = .ok e) ∧
    (∀ (s : String) (e : EventId), fromStr s = .ok e ↔ IsText s e) ∧
    ∀ s : String, (∃ e, IsText s e) ∨ fromStr s = .error .invalidIndex := by
  refine ⟨fromStr_display, fun s e => fromStr_eq_ok, fun s => ?_⟩
  cases h : fromStr s with
  | ok e => exact .inl ⟨e, fromStr_eq_ok.mp h⟩
  | error e => exact .inr rfl

end EventId

end Session

end Rmcp
