/-!
# Places Counted in Bytes

A part of a text may be given by the numbers of the bytes it starts and stops at, in UTF-8. A number
that falls inside a character gives no part.

* `between?`: the part of a text from one byte up to another one.
-/

namespace RealmBoot.Text

/-- The text after a number of bytes. -/
def dropBytes? : List Char → Nat → Option (List Char)
  | cs, 0 => some cs
  | [], _ + 1 => none
  | c :: cs, n + 1 => if c.utf8Size ≤ n + 1 then dropBytes? cs (n + 1 - c.utf8Size) else none

/-- The text from one byte up to another one. -/
def between? (cs : List Char) (start stop : Nat) : Option (List Char) := do
  let first ← dropBytes? cs start
  let rest ← dropBytes? first (stop - start)
  some (first.take (first.length - rest.length))

end RealmBoot.Text
