/-! Hexadecimal digits of a fixed width. -/

set_option autoImplicit false

namespace BoolQuery.Text

/-- The last `width` hexadecimal digits of a number, in small letters. -/
def hexDigits : Nat → Nat → List Char
  | 0, _ => []
  | width + 1, value => hexDigits width (value / 16) ++ [Nat.digitChar (value % 16)]

def hexValue? (c : Char) : Option Nat :=
  if '0' ≤ c && c ≤ '9' then some (c.toNat - 48)
  else if 'a' ≤ c && c ≤ 'f' then some (c.toNat - 87)
  else if 'A' ≤ c && c ≤ 'F' then some (c.toNat - 55)
  else none

def hexNumber? (digits : List Char) : Option Nat :=
  digits.foldlM (fun value c => (hexValue? c).map (value * 16 + ·)) 0

theorem length_hexDigits (width value : Nat) : (hexDigits width value).length = width := by
  induction width generalizing value with
  | zero => rfl
  | succ width ih => simp [hexDigits, ih]

theorem exists_of_mem_hexDigits {width value : Nat} {c : Char}
    (member : c ∈ hexDigits width value) : ∃ digit : Fin 16, Nat.digitChar digit = c := by
  induction width generalizing value with
  | zero => cases member
  | succ width ih =>
    rw [hexDigits, List.mem_append, List.mem_singleton] at member
    rcases member with member | rfl
    · exact ih member
    · exact ⟨⟨value % 16, Nat.mod_lt _ (by decide)⟩, rfl⟩

theorem hexValue?_lt {c : Char} {value : Nat} (found : hexValue? c = some value) : value < 16 := by
  unfold hexValue? at found
  simp only [Bool.and_eq_true, decide_eq_true_eq] at found
  split at found
  next bounds =>
    cases found
    have above : c.toNat ≤ 57 := bounds.2
    omega
  split at found
  next bounds =>
    cases found
    have above : c.toNat ≤ 102 := bounds.2
    omega
  split at found
  next bounds =>
    cases found
    have above : c.toNat ≤ 70 := bounds.2
    omega
  cases found

theorem hexValue?_digitChar {value : Nat} (small : value < 16) :
    hexValue? (Nat.digitChar value) = some value := by
  have each : ∀ value : Fin 16, hexValue? (Nat.digitChar value) = some value.val := by decide
  exact each ⟨value, small⟩

theorem hexNumber?_hexDigits (width : Nat) {value : Nat} (small : value < Nat.pow 16 width) :
    hexNumber? (hexDigits width value) = some value := by
  induction width generalizing value with
  | zero =>
    obtain rfl := Nat.lt_one_iff.mp small
    rfl
  | succ width ih =>
    have wide : value < Nat.pow 16 width * 16 := small
    have front : value / 16 < Nat.pow 16 width := by omega
    have last := hexValue?_digitChar (Nat.mod_lt value (by decide : 0 < 16))
    rw [hexDigits, hexNumber?, List.foldlM_append, ← hexNumber?, ih front]
    simp only [List.foldlM_cons, List.foldlM_nil, last, Option.map_some, Option.bind_eq_bind,
      Option.bind_some, Option.pure_def, Option.some.injEq]
    omega

/-- Four digits, one by one. -/
theorem hexDigits_four (value : Nat) : hexDigits 4 value =
    [Nat.digitChar (value / 16 / 16 / 16 % 16), Nat.digitChar (value / 16 / 16 % 16),
      Nat.digitChar (value / 16 % 16), Nat.digitChar (value % 16)] := rfl

end BoolQuery.Text
