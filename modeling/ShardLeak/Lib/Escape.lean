/-
# Percent escaping

A byte is escaped as `%` and two upper-case hex digits.  An escaping is given by the bytes that it
keeps; as long as these do not include `%`, it can be undone, and two escapings of a text agree
only where they treat all of its bytes alike.

The texts are lists of bytes, and an escaping is a Boolean function on bytes, so that the
escapings of two programs are two functions and nothing else.  Undoing an escaping does not need
to know which one it was: it takes every `%` with two hex digits after it for an escaped byte, and
every other byte as it is.

The proofs go along the bytes.  Hex digits may be kept bytes, too, so that an escaped text cannot
be taken apart at any of its bytes; but it can be read from its start, since `%` itself is never
kept.
-/
import Mathlib.Data.List.Basic

namespace ShardLeak

namespace Escape

/-- The byte `%`. -/
def percent : UInt8 := 37

/-- The upper-case hex digit of a number below 16. -/
def hexDigit (n : ℕ) : UInt8 := UInt8.ofNat (if n < 10 then 48 + n else 55 + n)

/-- The value of a hex digit. -/
def unhex (c : UInt8) : Option ℕ :=
  if 48 ≤ c ∧ c ≤ 57 then some (c.toNat - 48)
  else if 65 ≤ c ∧ c ≤ 70 then some (c.toNat - 55)
  else if 97 ≤ c ∧ c ≤ 102 then some (c.toNat - 87)
  else none

/-- A byte, kept or escaped. -/
def escapeByte (keep : UInt8 → Bool) (c : UInt8) : List UInt8 :=
  if keep c then [c] else [percent, hexDigit (c.toNat / 16), hexDigit (c.toNat % 16)]

/-- A text in which all bytes but those with `keep` are escaped. -/
def escape (keep : UInt8 → Bool) (s : List UInt8) : List UInt8 := s.flatMap (escapeByte keep)

/-- Undo an escaping; fails where `%` is not followed by two hex digits. -/
def unescape : List UInt8 → Option (List UInt8)
  | [] => some []
  | c :: s =>
    if c = percent then
      match s with
      | a :: b :: s => match unhex a, unhex b with
        | some x, some y => (unescape s).map (UInt8.ofNat (16 * x + y) :: ·)
        | _, _ => none
      | _ => none
    else (unescape s).map (c :: ·)

variable {keep keep' : UInt8 → Bool} {c : UInt8} {s t : List UInt8}

/-! ## Escaping -/

@[simp] lemma escape_nil : escape keep [] = [] := rfl

@[simp] lemma escape_cons : escape keep (c :: s) = escapeByte keep c ++ escape keep s := rfl

@[simp] lemma escape_append : escape keep (s ++ t) = escape keep s ++ escape keep t := by
  simp [escape]

lemma escapeByte_of_keep (h : keep c = true) : escapeByte keep c = [c] := if_pos h

lemma escapeByte_of_not (h : keep c = false) :
    escapeByte keep c = [percent, hexDigit (c.toNat / 16), hexDigit (c.toNat % 16)] :=
  if_neg (by simp [h])

lemma escape_of_keep (h : ∀ c ∈ s, keep c = true) : escape keep s = s := by
  induction s with
  | nil => rfl
  | cons c s ih =>
    rw [escape_cons, escapeByte_of_keep (h c (by simp)), ih fun d hd => h d (by simp [hd])]
    rfl

lemma unhex_hexDigit : ∀ n < 16, unhex (hexDigit n) = some n := by decide

/-- An escaped text has no bytes but those that are kept, `%`, and hex digits. -/
lemma mem_escape (h : c ∈ escape keep s) :
    keep c = true ∨ c = percent ∨ (unhex c).isSome := by
  obtain ⟨d, -, hd⟩ := List.mem_flatMap.1 h
  cases hk : keep d with
  | true =>
    rw [escapeByte_of_keep hk, List.mem_singleton] at hd
    exact .inl (hd ▸ hk)
  | false =>
    rw [escapeByte_of_not hk] at hd
    have hlt : d.toNat < 256 := d.toNat_lt
    rcases List.mem_cons.1 hd with rfl | hd
    · exact .inr (.inl rfl)
    · right
      right
      rcases List.mem_pair.1 hd with rfl | rfl
      · rw [unhex_hexDigit _ (by omega)]
        rfl
      · rw [unhex_hexDigit _ (by omega)]
        rfl

lemma escape_eq_nil_iff : escape keep s = [] ↔ s = [] := by
  cases s with
  | nil => simp
  | cons c s =>
    cases hk : keep c with
    | true => simp [escapeByte_of_keep hk]
    | false => simp [escapeByte_of_not hk]

/-! ## Undoing it -/

lemma unescape_cons_of_ne (h : c ≠ percent) (s : List UInt8) :
    unescape (c :: s) = (unescape s).map (c :: ·) := by
  rw [unescape.eq_def]
  exact if_neg h

lemma unescape_percent {a b : UInt8} {x y : ℕ} (ha : unhex a = some x) (hb : unhex b = some y)
    (s : List UInt8) :
    unescape (percent :: a :: b :: s) = (unescape s).map (UInt8.ofNat (16 * x + y) :: ·) := by
  rw [unescape.eq_def]
  simp only [ha, hb, if_true]

lemma unescape_append_of_notMem (h : percent ∉ s) (t : List UInt8) :
    unescape (s ++ t) = (unescape t).map (s ++ ·) := by
  induction s with
  | nil => simp
  | cons c s ih =>
    have hc : c ≠ percent := fun hc => h (by simp [hc])
    rw [List.cons_append, unescape_cons_of_ne hc, ih fun hs => h (by simp [hs]), Option.map_map]
    rfl

/-- **An escaping that does not keep `%` can be undone.** -/
theorem unescape_escape (h : keep percent = false) (s : List UInt8) :
    unescape (escape keep s) = some s := by
  induction s with
  | nil => rw [escape_nil, unescape]
  | cons c s ih =>
    cases hk : keep c with
    | true =>
      have hc : c ≠ percent := by
        rintro rfl
        rw [h] at hk
        cases hk
      rw [escape_cons, escapeByte_of_keep hk, List.singleton_append, unescape_cons_of_ne hc, ih,
        Option.map_some]
    | false =>
      have hlt : c.toNat < 256 := c.toNat_lt
      have hbyte : UInt8.ofNat (16 * (c.toNat / 16) + c.toNat % 16) = c := by
        rw [Nat.div_add_mod, UInt8.ofNat_toNat]
      rw [escape_cons, escapeByte_of_not hk]
      simp only [List.cons_append, List.nil_append]
      rw [unescape_percent (unhex_hexDigit _ (by omega)) (unhex_hexDigit _ (by omega)), ih, hbyte,
        Option.map_some]

/-- **Two escapings of a text agree only if they keep the same of its bytes.** -/
theorem escape_eq_escape_iff (h : keep percent = false) (h' : keep' percent = false) :
    escape keep s = escape keep' s ↔ ∀ c ∈ s, keep c = keep' c := by
  constructor
  · intro heq
    induction s with
    | nil => simp
    | cons c s ih =>
      have hc : keep c = keep' c := by
        by_contra hne
        -- one of them keeps the byte, and the other one writes `%` in its place
        have hhead := congrArg List.head? heq
        cases hk : keep c with
        | true =>
          have hk' : keep' c = false := by
            rw [hk] at hne
            simpa using hne
          rw [escape_cons, escape_cons, escapeByte_of_keep hk, escapeByte_of_not hk'] at hhead
          obtain rfl : c = percent := by simpa using hhead
          rw [h] at hk
          cases hk
        | false =>
          have hk' : keep' c = true := by
            rw [hk] at hne
            simpa using hne
          rw [escape_cons, escape_cons, escapeByte_of_not hk, escapeByte_of_keep hk'] at hhead
          obtain rfl : percent = c := by simpa using hhead
          rw [h'] at hk'
          cases hk'
      have hbyte : escapeByte keep c = escapeByte keep' c := by
        rw [escapeByte, escapeByte, hc]
      rw [escape_cons, escape_cons, hbyte, List.append_cancel_left_eq] at heq
      intro d hd
      rcases List.mem_cons.1 hd with rfl | hd
      · exact hc
      · exact ih heq d hd
  · intro hall
    induction s with
    | nil => rfl
    | cons c s ih =>
      have hbyte : escapeByte keep c = escapeByte keep' c := by
        rw [escapeByte, escapeByte, hall c (by simp)]
      rw [escape_cons, escape_cons, hbyte, ih fun d hd => hall d (by simp [hd])]

/-- An escaping changes nothing only if it keeps all bytes. -/
theorem escape_eq_self_iff : escape keep s = s ↔ ∀ c ∈ s, keep c = true := by
  refine ⟨fun heq => ?_, escape_of_keep⟩
  have hlen : ∀ s : List UInt8, s.length ≤ (escape keep s).length := by
    intro s
    induction s with
    | nil => simp
    | cons c s ih =>
      cases hk : keep c with
      | true => simpa [escapeByte_of_keep hk] using ih
      | false =>
        rw [escape_cons, escapeByte_of_not hk]
        simp only [List.cons_append, List.nil_append, List.length_cons]
        omega
  induction s with
  | nil => simp
  | cons c s ih =>
    cases hk : keep c with
    | true =>
      rw [escape_cons, escapeByte_of_keep hk, List.singleton_append, List.cons.injEq] at heq
      intro d hd
      rcases List.mem_cons.1 hd with rfl | hd
      · exact hk
      · exact ih heq.2 d hd
    | false =>
      -- the escaped text is longer
      have hlong := congrArg List.length heq
      rw [escape_cons, escapeByte_of_not hk] at hlong
      simp only [List.cons_append, List.nil_append, List.length_cons] at hlong
      have := hlen s
      omega

end Escape

end ShardLeak
