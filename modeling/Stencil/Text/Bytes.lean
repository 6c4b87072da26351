namespace Stencil.Text

/-!
# Byte offsets

Markers are placed by offsets into the UTF-8 form of a text, while the text
itself is handled character by character.  Cutting at an offset is defined by
recursion on the characters, so an offset inside a character is not a place
where a text can be cut.
-/

/-- The length of the UTF-8 form. -/
def byteSize : List Char → Nat
  | [] => 0
  | c :: rest => c.utf8Size + byteSize rest

/-- The characters before and after a byte offset, if it is at most the length
of the text and lies between two characters. -/
def cutAt? (offset : Nat) : List Char → Option (List Char × List Char)
  | [] => if offset = 0 then some ([], []) else none
  | c :: rest =>
    if offset = 0 then some ([], c :: rest)
    else if offset < c.utf8Size then none
    else (cutAt? (offset - c.utf8Size) rest).map fun parts => (c :: parts.1, parts.2)

/-- Whether a text can be cut at this offset. -/
def isBoundary (offset : Nat) (cs : List Char) : Bool := (cutAt? offset cs).isSome

/-- The characters from one byte offset to another, if both are boundaries in
ascending order. -/
def slice? (start stop : Nat) (cs : List Char) : Option (List Char) :=
  if start ≤ stop then
    (cutAt? start cs).bind fun parts =>
      (cutAt? (stop - start) parts.2).map fun inner => inner.1
  else none

@[simp]
theorem byteSize_append (front back : List Char) :
    byteSize (front ++ back) = byteSize front + byteSize back := by
  induction front with
  | nil => simp [byteSize]
  | cons c rest ih => simp [byteSize, ih, Nat.add_assoc]

/-- The two parts of a cut make up the text, and the first ends at the offset. -/
theorem cutAt?_eq_some {offset : Nat} {cs front back : List Char}
    (h : cutAt? offset cs = some (front, back)) :
    front ++ back = cs ∧ byteSize front = offset := by
  induction cs generalizing offset front back with
  | nil =>
    unfold cutAt? at h
    split at h <;> simp_all [byteSize]
  | cons c rest ih =>
    unfold cutAt? at h
    split at h
    · simp_all [byteSize]
    · split at h
      · simp at h
      · obtain ⟨parts, hparts, heq⟩ := Option.map_eq_some_iff.1 h
        obtain ⟨joined, size⟩ := ih hparts
        simp only [Prod.mk.injEq] at heq
        obtain ⟨rfl, rfl⟩ := heq
        refine ⟨by simp [joined], ?_⟩
        simp only [byteSize, size]
        omega

end Stencil.Text
