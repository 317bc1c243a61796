import Mathlib.Algebra.Group.Nat.Defs
import Mathlib.Data.List.DropRight
import Cinematic.Text.Blank
import Cinematic.Text.Ink
import Cinematic.Text.Numeral
import Cinematic.Text.Pad
import Cinematic.Text.Split

/-!
# Texts that stay on a line

A report is written line by line, and whoever reads it takes it apart at the line feeds. That this
gives back the lines (`Cinematic.Text.lines_unlines`) asks something of them: a line feed inside
would cut one in two, and a carriage return at the end would be lost. Both are white space, and the
lines of the reports of this library **have no white space but spaces** (`Cinematic.Text.Inline`). So
nothing depends on which white space is trimmed away, either (`Cinematic.Text.trimEnd_eq`).

What the lines are made of, numerals and fixed words, is even **printable**
(`Cinematic.Text.Printable`). A line need not be, since colours are switched on and off by characters
that are not shown.

Of numerals it is shown besides that they can be read back (`Cinematic.Text.digits?_hex`).
-/

namespace Cinematic.Text

/-- **A text without white space but spaces.** -/
def Inline (text : String) : Prop := ∀ c ∈ text.toList, isBlank c = true → c = ' '

-- one character of the text after the other, and not all characters there are
instance (text : String) : Decidable (Inline text) := List.decidableBAll _ text.toList

/-- **A text of printable characters.** -/
def Printable (text : String) : Prop := ∀ c ∈ text.toList, 0x20 ≤ c.toNat ∧ c.toNat < 0x7f

instance (text : String) : Decidable (Printable text) := List.decidableBAll _ text.toList

variable {s t : String}

@[simp] theorem inline_append : Inline (s ++ t) ↔ Inline s ∧ Inline t := by
  simp only [Inline, String.toList_append, List.mem_append, or_imp, forall_and]

theorem inline_ofList {cs : List Char} :
    Inline (String.ofList cs) ↔ ∀ c ∈ cs, isBlank c = true → c = ' ' := by
  rw [Inline, String.toList_ofList]

@[simp] theorem printable_append : Printable (s ++ t) ↔ Printable s ∧ Printable t := by
  rw [Printable, String.toList_append]
  exact List.forall_mem_append

theorem printable_ofList {cs : List Char} :
    Printable (String.ofList cs) ↔ ∀ c ∈ cs, 0x20 ≤ c.toNat ∧ c.toNat < 0x7f := by
  rw [Printable, String.toList_ofList]

/-- **The only white space that is printable is the space.** -/
theorem Printable.inline (printable : Printable t) : Inline t := by
  intro c among blank
  obtain ⟨low, high⟩ := printable c among
  rw [isBlank, List.any_eq_true] at blank
  obtain ⟨⟨first, last⟩, listed, inside⟩ := blank
  rw [Bool.and_eq_true, decide_eq_true_eq, decide_eq_true_eq] at inside
  have space : c.toNat = 0x20 := by
    simp only [blankRanges, List.mem_cons, List.not_mem_nil, or_false, Prod.mk.injEq] at listed
    omega
  exact Char.toNat_inj.1 space

@[simp] theorem printable_padEnd (width : Nat) : Printable (padEnd width t) ↔ Printable t := by
  rw [padEnd, printable_append]
  refine and_iff_left (printable_ofList.2 fun c filled => ?_)
  rw [List.eq_of_mem_replicate filled]
  decide

/-! ### Numerals -/

/-- Every character of a numeral is a digit of its base. -/
theorem mem_toDigits {base : Nat} (large : 1 < base) {n : Nat} {c : Char}
    (shown : c ∈ Nat.toDigits base n) : ∃ d < base, c = Nat.digitChar d := by
  induction n using Nat.strongRecOn with
  | ind n ih =>
    rw [Nat.toDigits_eq_if large] at shown
    split at shown
    · next small => exact ⟨n, small, List.mem_singleton.1 shown⟩
    · next more =>
      rcases List.mem_append.1 shown with front | last
      · exact ih (n / base) (Nat.div_lt_self (by omega) large) front
      · exact ⟨n % base, Nat.mod_lt _ (by omega), List.mem_singleton.1 last⟩

theorem printable_digitChar :
    ∀ d < 16, 0x20 ≤ (Nat.digitChar d).toNat ∧ (Nat.digitChar d).toNat < 0x7f := by
  decide

@[simp] theorem printable_repr (n : Nat) : Printable n.repr := by
  rw [← Nat.toString_eq_repr, Nat.toString_eq_ofList_toDigits, printable_ofList]
  intro c shown
  obtain ⟨d, below, rfl⟩ := mem_toDigits (by decide) shown
  exact printable_digitChar d (by omega)

theorem printable_toString_int (n : Int) : Printable (toString n) := by
  rcases n with n | n
  · exact printable_repr n
  · exact printable_append.2 ⟨by decide, printable_repr (n + 1)⟩

/-- Every character of a hexadecimal numeral is a digit. -/
theorem mem_hex {width n : Nat} {c : Char} (shown : c ∈ (hex width n).toList) :
    ∃ d < 16, c = Nat.digitChar d := by
  rw [hex, padStart, String.toList_append, String.toList_ofList, String.toList_ofList] at shown
  rcases List.mem_append.1 shown with filled | digit
  · exact ⟨0, by decide, List.eq_of_mem_replicate filled⟩
  · exact mem_toDigits (by decide) digit

@[simp] theorem printable_hex (width n : Nat) : Printable (hex width n) := by
  intro c shown
  obtain ⟨d, below, rfl⟩ := mem_hex shown
  exact printable_digitChar d below

@[simp] theorem printable_hexMarked (width n : Nat) : Printable (hexMarked width n) :=
  printable_append.2 ⟨by decide, printable_hex width n⟩

theorem digitBelow?_digitChar : ∀ d < 16, digitBelow? 16 (Nat.digitChar d) = some d := by
  decide

theorem appendDigits?_append (base n : Nat) (front : List Char) (last : Char) :
    appendDigits? base n (front ++ [last])
      = (appendDigits? base n front).bind fun m => appendDigits? base m [last] := by
  induction front generalizing n with
  | nil => rfl
  | cons c front ih =>
    rw [List.cons_append, appendDigits?, appendDigits?]
    split
    · exact ih _
    · rfl

theorem appendDigits?_digitChar {d : Nat} (below : d < 16) (n : Nat) :
    appendDigits? 16 n [Nat.digitChar d] = some (n * 16 + d) := by
  rw [appendDigits?, digitBelow?_digitChar d below]
  rfl

theorem appendDigits?_toDigits (n : Nat) : appendDigits? 16 0 (Nat.toDigits 16 n) = some n := by
  induction n using Nat.strongRecOn with
  | ind n ih =>
    rw [Nat.toDigits_eq_if (by decide)]
    split
    · next small => rw [appendDigits?_digitChar small, Nat.zero_mul, Nat.zero_add]
    · next more =>
      rw [appendDigits?_append, ih (n / 16) (by omega), Option.bind_some,
        appendDigits?_digitChar (Nat.mod_lt _ (by decide))]
      congr 1
      omega

theorem appendDigits?_zeros (count : Nat) (cs : List Char) :
    appendDigits? 16 0 (List.replicate count '0' ++ cs) = appendDigits? 16 0 cs := by
  induction count with
  | zero => rfl
  | succ count ih => exact ih

/-- **A hexadecimal numeral is read as the number that it shows.** -/
theorem digits?_hex (width n : Nat) : digits? 16 (hex width n).toList = some n := by
  have value : appendDigits? 16 0 (hex width n).toList = some n := by
    rw [hex, padStart, String.toList_append, String.toList_ofList, String.toList_ofList,
      appendDigits?_zeros, appendDigits?_toDigits]
  have shown : (hex width n).toList ≠ [] := by
    rw [hex, padStart, String.toList_append, String.toList_ofList, String.toList_ofList]
    exact List.append_ne_nil_of_right_ne_nil _ Nat.toDigits_ne_nil
  obtain ⟨c, rest, shape⟩ := List.exists_cons_of_ne_nil shown
  rw [shape] at value ⊢
  exact value

/-! ### Colours -/

/-- A palette that adds no white space but spaces. -/
def Palette.Inline (p : Palette) : Prop := (∀ role, Text.Inline (p.start role)) ∧ Text.Inline p.stop

theorem Palette.inline_ofBool (colored : Bool) : (Palette.ofBool colored).Inline := by
  cases colored with
  | false => exact ⟨fun role => by cases role <;> decide, by decide⟩
  | true => exact ⟨fun role => by cases role <;> decide, by decide⟩

theorem Palette.Inline.paint {p : Palette} (plain : p.Inline) (role : Role)
    (inline : Text.Inline t) : Text.Inline (p.paint role t) :=
  inline_append.2 ⟨inline_append.2 ⟨plain.1 role, inline⟩, plain.2⟩

@[simp] theorem Span.text_plain (text : String) : (Span.plain text).text = text := rfl

@[simp] theorem Span.text_ink (role : Role) (text : String) : (Span.ink role text).text = text :=
  rfl

theorem Span.inline_renderAll {p : Palette} (plain : p.Inline) {spans : List Span}
    (printable : ∀ span ∈ spans, Printable span.text) : Inline (Span.renderAll p spans) := by
  -- what has been written so far stays inline with every span
  suffices ∀ t, Inline t → Inline (spans.foldl (fun text span => text ++ span.render p) t) from
    this "" (by decide)
  induction spans with
  | nil => exact fun t written => written
  | cons span spans ih =>
    intro t written
    refine ih (fun other among => printable other (List.mem_cons_of_mem _ among)) _ ?_
    refine inline_append.2 ⟨written, ?_⟩
    have own := (printable span List.mem_cons_self).inline
    cases span with
    | plain text => exact own
    | ink role text => exact plain.paint role own

/-! ### Trimming -/

theorem Inline.trimEnd (inline : Inline t) : Inline (trimEnd t) := by
  refine inline_ofList.2 fun c kept => inline c ?_
  exact List.mem_reverse.1 ((List.dropWhile_sublist _).subset (List.mem_reverse.1 kept))

/-! ### Lines -/

theorem toList_unlines (ls : List String) :
    (unlines ls).toList = ls.flatMap fun line => line.toList ++ ['\n'] := by
  suffices ∀ t : String, (ls.foldl (fun text line => text ++ line ++ "\n") t).toList
      = t.toList ++ ls.flatMap fun line => line.toList ++ ['\n'] from this ""
  induction ls with
  | nil => simp
  | cons line ls ih =>
    intro t
    rw [List.foldl_cons, ih, String.toList_append, String.toList_append, List.flatMap_cons,
      List.append_assoc, List.append_assoc, List.append_assoc]
    rfl

theorem piecesOf_ne_nil (separator : Char) (cs : List Char) : piecesOf separator cs ≠ [] := by
  cases cs with
  | nil => exact List.cons_ne_nil _ _
  | cons c cs =>
    rw [piecesOf]
    split
    · exact List.cons_ne_nil _ _
    · split
      · exact List.cons_ne_nil _ _
      · exact List.cons_ne_nil _ _

/-- **A separator divides the pieces before it from those behind it.** -/
theorem piecesOf_append (separator : Char) (front rest : List Char) :
    piecesOf separator (front ++ separator :: rest)
      = piecesOf separator front ++ piecesOf separator rest := by
  induction front with
  | nil => exact piecesOf_separator separator rest
  | cons c front ih =>
    obtain ⟨first, others, shape⟩ := List.exists_cons_of_ne_nil (piecesOf_ne_nil separator front)
    rw [List.cons_append, piecesOf, piecesOf, ih, shape]
    split
    · rfl
    · rfl

theorem Inline.not_mem (inline : Inline t) {c : Char} (blank : isBlank c = true) (other : c ≠ ' ') :
    c ∉ t.toList :=
  fun among => other (inline c among blank)

theorem Inline.dropReturn (inline : Inline t) : dropReturn t = t := by
  unfold Text.dropReturn
  split
  · next rest shape =>
    refine absurd ?_ (inline.not_mem (c := '\r') (by decide) (by decide))
    rw [← List.mem_reverse, shape]
    exact List.mem_cons_self
  · rfl

theorem pieces_unlines {ls : List String} (inline : ∀ line ∈ ls, Inline line) :
    pieces '\n' (unlines ls) = ls ++ [""] := by
  rw [pieces, toList_unlines]
  induction ls with
  | nil => rfl
  | cons line ls ih =>
    have whole := (inline line List.mem_cons_self).not_mem (c := '\n') (by decide) (by decide)
    rw [List.flatMap_cons, List.append_assoc, List.singleton_append, piecesOf_append,
      piecesOf_of_not_mem whole, List.singleton_append, List.map_cons,
      ih fun other among => inline other (List.mem_cons_of_mem _ among), String.ofList_toList,
      List.cons_append]

end Cinematic.Text
