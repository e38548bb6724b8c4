/-!
# Rounding quotients

A quotient of natural numbers is rounded to the nearest natural number; a tie goes to the even
neighbour.
-/

namespace Federation

def roundHalfEven (num den : Nat) : Nat :=
  let low := num / den
  let twice := 2 * (num % den)
  if twice < den then low
  else if den < twice then low + 1
  else if low % 2 = 0 then low else low + 1

theorem roundHalfEven_of_dvd {num den : Nat} (h : num % den = 0) (hd : 0 < den) :
    roundHalfEven num den = num / den := by
  simp [roundHalfEven, h, hd]

end Federation
