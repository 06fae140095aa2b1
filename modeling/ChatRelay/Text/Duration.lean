import ChatRelay.Text.Instant

/-!
# Durations as text

A duration of whole milliseconds, written with the largest unit that is not below one, and with as
many decimals as it needs.
-/

namespace ChatRelay.Text

/-- The decimals of a number of thousandths, without trailing zeros. -/
def thousandths (n : Nat) : String :=
  trailing (zeroPadded 3 n).toList
where
  trailing (cs : List Char) : String :=
    String.ofList (cs.reverse.dropWhile (· == '0')).reverse

/-- A duration as text. -/
def duration (millis : Nat) : String :=
  if millis = 0 then "0ns"
  else if millis < 1000 then toString millis ++ "ms"
  else
    let decimals := thousandths (millis % 1000)
    toString (millis / 1000) ++ (if decimals.isEmpty then "" else "." ++ decimals) ++ "s"

end ChatRelay.Text
