/-!
# Blank characters

Requests are trimmed before anything else looks at them. Blank are exactly the characters with the Unicode property
White_Space; zero-width spaces, the byte order mark and the information separators are not among them.

- `trim` keeps the text between the first and the last character that is not blank.
- `trim_trim`: nothing is left to trim.
-/

namespace PermissionFeed.Text

def isBlank (char : Char) : Bool :=
  let code := char.toNat
  (0x9 ≤ code && code ≤ 0xD) || code == 0x20 || code == 0x85 || code == 0xA0 || code == 0x1680 ||
  (0x2000 ≤ code && code ≤ 0x200A) || code == 0x2028 || code == 0x2029 || code == 0x202F ||
  code == 0x205F || code == 0x3000

def trimChars (chars : List Char) : List Char :=
  ((chars.dropWhile isBlank).reverse.dropWhile isBlank).reverse

def trim (text : String) : String :=
  String.ofList (trimChars text.toList)

theorem dropWhile_blank_of_head {chars : List Char} (sharp : ∀ char ∈ chars.head?, isBlank char = false) :
    chars.dropWhile isBlank = chars := by
  cases chars with
  | nil => rfl
  | cons first rest => rw [List.dropWhile_cons, sharp first rfl, if_neg Bool.false_ne_true]

theorem head_dropWhile_blank (chars : List Char) : ∀ char ∈ (chars.dropWhile isBlank).head?, isBlank char = false := by
  intro char first
  have sharp := List.head?_dropWhile_not isBlank chars
  rwa [Option.mem_def.mp first] at sharp

theorem head_trimChars (chars : List Char) : ∀ char ∈ (trimChars chars).head?, isBlank char = false := by
  intro char first
  apply head_dropWhile_blank chars
  -- what is kept is a beginning of what is left after trimming in front
  have beginning : trimChars chars <+: chars.dropWhile isBlank := by
    rw [← List.reverse_suffix, trimChars, List.reverse_reverse]
    exact List.dropWhile_suffix isBlank
  obtain ⟨rest, same⟩ := beginning
  rw [← same, List.head?_append, Option.mem_def.mp first]
  rfl

theorem trimChars_trimChars (chars : List Char) : trimChars (trimChars chars) = trimChars chars := by
  rw [trimChars, dropWhile_blank_of_head (head_trimChars chars)]
  unfold trimChars
  rw [List.reverse_reverse, dropWhile_blank_of_head (head_dropWhile_blank _)]

theorem trim_trim (text : String) : trim (trim text) = trim text := by
  rw [trim, trim, String.toList_ofList, trimChars_trimChars]

end PermissionFeed.Text
