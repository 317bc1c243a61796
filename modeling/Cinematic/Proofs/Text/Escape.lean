import Mathlib.Data.List.Forall2
import Cinematic.Proofs.Text.Inline

/-!
# What a terminal shows

A terminal takes an **escape sequence** for a command and shows nothing in its place. If all sequences
of a text are deleted, what is left is what the text shows (`Cinematic.Text.withoutEscapes`).

A sequence is recognised by looking ahead, so that it is not clear at once what is shown by texts that
are put together. For texts whose sequences are complete it is: they are described by a relation
(`Cinematic.Text.Shows`) that is kept up whatever they are put together with
(`Cinematic.Text.Shows.append`), and **deleting the sequences gives what the relation says**
(`Cinematic.Text.Shows.dropEscapes`).

The spaces at the end of a line are another matter. A sequence may stand behind some of them, and these
are not trimmed away before it is deleted. Those that are trimmed away are shown, since no sequence
ends in a space; so **it makes no difference to what is left in the end whether a line has been trimmed
before** (`Cinematic.Text.Shows.trim`).
-/

namespace Cinematic.Text

/-! ### Escape sequences -/

/-- The parameters of a control sequence. -/
def isParameter (c : Char) : Bool := 0x30 ≤ c.toNat && c.toNat ≤ 0x3f

/-- The marks that may stand before the end of a sequence. -/
def isMark (c : Char) : Bool := 0x20 ≤ c.toNat && c.toNat ≤ 0x2f

/-- Whether a sequence ends with a character, if no smaller one ends it. -/
def isFinal (lowest : Nat) (c : Char) : Bool := lowest ≤ c.toNat && c.toNat ≤ 0x7e

/-- **The escape sequences**: an escape character, marks and a final character; or, if a bracket and
parameters stand before the marks, a control sequence. -/
inductive Escape : List Char → Prop
  | control {parameters marks : List Char} {final : Char}
    (numeric : ∀ c ∈ parameters, isParameter c = true) (marked : ∀ c ∈ marks, isMark c = true)
    (ends : isFinal 0x40 final = true) :
    Escape ('\x1b' :: '[' :: (parameters ++ (marks ++ [final])))
  | other {marks : List Char} {final : Char} (marked : ∀ c ∈ marks, isMark c = true)
    (ends : isFinal 0x30 final = true) (short : (marks ++ [final]).head? ≠ some '[') :
    Escape ('\x1b' :: (marks ++ [final]))

/-- What follows the marks and the final character of a sequence, if the sequence is complete. -/
def afterMarks? (lowest : Nat) (cs : List Char) : Option (List Char) :=
  match cs.dropWhile isMark with
  | final :: rest => if isFinal lowest final then some rest else none
  | [] => none

/-- What follows a sequence, given what follows its escape character. -/
def afterEscape? (cs : List Char) : Option (List Char) :=
  match cs with
  | '[' :: rest => afterMarks? 0x40 (rest.dropWhile isParameter)
  | rest => afterMarks? 0x30 rest

theorem length_afterMarks? {lowest : Nat} {cs rest : List Char}
    (complete : afterMarks? lowest cs = some rest) : rest.length < cs.length := by
  have shorter := (List.dropWhile_sublist (l := cs) isMark).length_le
  unfold afterMarks? at complete
  split at complete
  · next final left shape =>
    rw [shape, List.length_cons] at shorter
    split at complete
    · cases complete
      exact shorter
    · cases complete
  · cases complete

theorem length_afterEscape? {cs rest : List Char} (complete : afterEscape? cs = some rest) :
    rest.length < cs.length := by
  unfold afterEscape? at complete
  split at complete
  · next left =>
    have shorter := (List.dropWhile_sublist (l := left) isParameter).length_le
    exact Nat.lt_succ_of_lt (Nat.lt_of_lt_of_le (length_afterMarks? complete) shorter)
  · exact length_afterMarks? complete

/-- The characters of a text without those of its escape sequences. An escape character that begins
none is a character like any other. -/
def dropEscapes : List Char → List Char
  | [] => []
  | c :: cs =>
    if c = '\x1b' then
      match complete : afterEscape? cs with
      | some rest =>
        have := length_afterEscape? complete
        dropEscapes rest
      | none => c :: dropEscapes cs
    else c :: dropEscapes cs
termination_by cs => cs.length

/-- **A text without its escape sequences.** -/
def withoutEscapes (text : String) : String := String.ofList (dropEscapes text.toList)

/-- **What a line shows**, without the spaces at its end. -/
def bare (line : String) : String := trimEnd (withoutEscapes line)

/-- A text without the spaces at the ends of its lines. -/
def trimLines (text : String) : String := "\n".intercalate ((pieces '\n' text).map trimEnd)

/-! ### What is shown -/

/-- **What a text shows**, whose escape sequences are complete. -/
inductive Shows : List Char → List Char → Prop
  | nil : Shows [] []
  | char {c : Char} {text shown : List Char} (plain : c ≠ '\x1b') (rest : Shows text shown) :
    Shows (c :: text) (c :: shown)
  | escape {sequence text shown : List Char} (escape : Escape sequence) (rest : Shows text shown) :
    Shows (sequence ++ text) shown

theorem afterMarks?_append {lowest : Nat} {marks : List Char} {final : Char}
    (marked : ∀ c ∈ marks, isMark c = true) (ends : isFinal lowest final = true)
    (high : 0x30 ≤ lowest) (rest : List Char) :
    afterMarks? lowest (marks ++ final :: rest) = some rest := by
  have other : ¬ isMark final = true := by
    simp only [isFinal, isMark, Bool.and_eq_true, decide_eq_true_eq] at ends ⊢
    omega
  rw [afterMarks?, List.dropWhile_append_of_pos marked, List.dropWhile_cons_of_neg other]
  exact if_pos ends

theorem not_isParameter_of_isMark {c : Char} (mark : isMark c = true) : ¬ isParameter c = true := by
  simp only [isMark, isParameter, Bool.and_eq_true, decide_eq_true_eq] at mark ⊢
  omega

theorem not_isParameter_of_isFinal {c : Char} (final : isFinal 0x40 c = true) :
    ¬ isParameter c = true := by
  simp only [isFinal, isParameter, Bool.and_eq_true, decide_eq_true_eq] at final ⊢
  omega

/-- No sequence ends in a space. -/
theorem Escape.getLast?_ne {sequence : List Char} (escape : Escape sequence) :
    sequence.getLast? ≠ some ' ' := by
  have solid {lowest : Nat} {final : Char} (high : 0x30 ≤ lowest) (ends : isFinal lowest final = true)
      (front : List Char) : (front ++ [final]).getLast? ≠ some ' ' := by
    rw [List.getLast?_concat]
    rintro ⟨⟩
    simp only [isFinal, Bool.and_eq_true, decide_eq_true_eq] at ends
    exact absurd (high.trans ends.1) (by decide)
  cases escape with
  | @control parameters marks _ _ _ ends =>
    have whole := solid (by decide) ends ('\x1b' :: '[' :: (parameters ++ marks))
    rwa [List.cons_append, List.cons_append, List.append_assoc] at whole
  | @other marks _ _ ends _ => exact solid (by decide) ends ('\x1b' :: marks)

/-- **A sequence is recognised**, whatever follows it. -/
theorem Escape.exists_body {sequence : List Char} (escape : Escape sequence) :
    ∃ body, sequence = '\x1b' :: body ∧ ∀ rest, afterEscape? (body ++ rest) = some rest := by
  cases escape with
  | @control parameters marks final numeric marked ends =>
    refine ⟨_, rfl, fun rest => ?_⟩
    have past : (parameters ++ (marks ++ final :: rest)).dropWhile isParameter
        = marks ++ final :: rest := by
      rw [List.dropWhile_append_of_pos numeric]
      cases marks with
      | nil => exact List.dropWhile_cons_of_neg (not_isParameter_of_isFinal ends)
      | cons mark marks =>
        exact List.dropWhile_cons_of_neg (not_isParameter_of_isMark (marked mark List.mem_cons_self))
    rw [List.cons_append, List.append_assoc, List.append_assoc, List.singleton_append, afterEscape?,
      past]
    exact afterMarks?_append marked ends (by decide) rest
  | @other marks final marked ends short =>
    refine ⟨_, rfl, fun rest => ?_⟩
    rw [List.append_assoc, List.singleton_append]
    unfold afterEscape?
    split
    · -- without a bracket it is no control sequence
      next bracket => cases marks <;> exact absurd (congrArg List.head? bracket) short
    · exact afterMarks?_append marked ends (by decide) rest

theorem Escape.dropEscapes {sequence : List Char} (escape : Escape sequence) (rest : List Char) :
    dropEscapes (sequence ++ rest) = dropEscapes rest := by
  obtain ⟨body, rfl, complete⟩ := escape.exists_body
  rw [List.cons_append, Text.dropEscapes, if_pos rfl]
  split
  · next left complete' =>
    cases (complete rest).symm.trans complete'
    rfl
  · next incomplete => cases (complete rest).symm.trans incomplete

namespace Shows

variable {text text' shown shown' : List Char}

/-- **Texts show one after the other what they show each.** -/
theorem append (first : Shows text shown) (second : Shows text' shown') :
    Shows (text ++ text') (shown ++ shown') := by
  induction first with
  | nil => exact second
  | char plain _ ih => exact .char plain ih
  | escape escape _ ih =>
    rw [List.append_assoc]
    exact .escape escape ih

/-- **Deleting the sequences leaves what is shown.** -/
theorem dropEscapes (shows : Shows text shown) : Text.dropEscapes text = shown := by
  induction shows with
  | nil => rw [Text.dropEscapes]
  | char plain _ ih => rw [Text.dropEscapes, if_neg plain, ih]
  | escape escape _ ih => rw [escape.dropEscapes, ih]

theorem subset (shows : Shows text shown) : shown ⊆ text := by
  induction shows with
  | nil => exact List.Subset.refl _
  | char _ _ ih => exact List.cons_subset_cons _ ih
  | escape _ _ ih => exact fun c among => List.mem_append_right _ (ih among)

/-- A space at the end is shown. -/
theorem of_concat_space (shows : Shows (text ++ [' ']) shown) :
    ∃ front, shown = front ++ [' '] ∧ Shows text front := by
  generalize whole : text ++ [' '] = spaced at shows
  induction shows generalizing text with
  | nil => cases List.append_ne_nil_of_right_ne_nil text (List.cons_ne_nil _ _) whole
  | @char c rest shown plain shows ih =>
    cases text with
    | nil =>
      cases whole
      have nothing := shows.dropEscapes
      rw [Text.dropEscapes] at nothing
      exact ⟨[], congrArg (' ' :: ·) nothing.symm, .nil⟩
    | cons c' text =>
      obtain ⟨rfl, tail⟩ := List.cons.inj whole
      obtain ⟨front, rfl, before⟩ := ih tail
      exact ⟨c' :: front, rfl, .char plain before⟩
  | @escape sequence rest shown escape shows ih =>
    rcases List.eq_nil_or_concat' rest with rfl | ⟨before, last, rfl⟩
    · have ends := congrArg List.getLast? whole
      rw [List.append_nil, List.getLast?_concat] at ends
      exact absurd ends.symm escape.getLast?_ne
    · rw [← List.append_assoc] at whole
      obtain ⟨rfl, same⟩ := List.append_inj' whole rfl
      cases same
      obtain ⟨front, rfl, inner⟩ := ih rfl
      exact ⟨front, rfl, .escape escape inner⟩

/-- **Trimming a text trims what it shows**, except for spaces that a sequence stands behind. -/
theorem trim (shows : Shows text shown) :
    ∃ front, Shows (text.rdropWhile (· == ' ')) front ∧
      front.rdropWhile (· == ' ') = shown.rdropWhile (· == ' ') := by
  induction text using List.reverseRecOn generalizing shown with
  | nil => exact ⟨shown, shows, rfl⟩
  | append_singleton text c ih =>
    rcases eq_or_ne c ' ' with rfl | solid
    · obtain ⟨front, rfl, before⟩ := shows.of_concat_space
      rw [List.rdropWhile_concat_pos _ _ _ rfl, List.rdropWhile_concat_pos _ _ _ rfl]
      exact ih before
    · rw [List.rdropWhile_concat_neg _ _ _ (by simpa using solid)]
      exact ⟨shown, shows, rfl⟩

end Shows

variable {s t shown : String}

/-- A printable text shows itself. -/
theorem Printable.shows (printable : Printable t) : Shows t.toList t.toList := by
  have plain : ∀ c ∈ t.toList, c ≠ '\x1b' := by
    rintro _ among rfl
    exact absurd (printable _ among).1 (by decide)
  generalize t.toList = cs at plain
  induction cs with
  | nil => exact .nil
  | cons c cs ih =>
    exact .char (plain c List.mem_cons_self) (ih fun other among =>
      plain other (List.mem_cons_of_mem _ among))

/-! ### Palettes -/

/-- **A palette that shows nothing**: colours are switched on and off by escape sequences, if at
all. -/
structure Palette.Silent (p : Palette) : Prop where
  start (role : Role) : Shows (p.start role).toList []
  stop : Shows p.stop.toList []

theorem Palette.silent_terminal : Palette.terminal.Silent := by
  have code (parameters : List Char) (numeric : parameters.all isParameter = true) :
      Shows ('\x1b' :: '[' :: (parameters ++ ['m'])) [] := by
    have coloured : Escape ('\x1b' :: '[' :: (parameters ++ ([] ++ ['m']))) :=
      .control (List.all_eq_true.1 numeric) nofun (by decide)
    have whole := Shows.escape coloured .nil
    rwa [List.append_nil] at whole
  refine ⟨fun role => ?_, code ['0'] (by decide)⟩
  cases role with
  | mnemonic => exact code ['3', '4'] (by decide)
  | value => exact code ['3', '2'] (by decide)
  | target => exact code ['3', '3'] (by decide)
  | offset => exact code ['2'] (by decide)
  | error => exact code ['3', '1'] (by decide)

theorem Span.toList_renderAll (p : Palette) (spans : List Span) :
    (renderAll p spans).toList = spans.flatMap fun span => (span.render p).toList := by
  suffices ∀ t : String, (spans.foldl (fun text span => text ++ span.render p) t).toList
      = t.toList ++ spans.flatMap fun span => (span.render p).toList from this ""
  induction spans with
  | nil => simp
  | cons span spans ih =>
    intro t
    rw [List.foldl_cons, ih, String.toList_append, List.flatMap_cons, List.append_assoc]

namespace Palette.Silent

variable {p : Palette} (silent : p.Silent)
include silent

/-- **A text in colour shows the text.** -/
theorem paint (role : Role) (printable : Printable t) :
    Shows (p.paint role t).toList (Palette.none.paint role t).toList := by
  rw [paint_none, Palette.paint, String.toList_append, String.toList_append]
  have shows := ((silent.start role).append printable.shows).append silent.stop
  rwa [List.append_nil] at shows

/-- **Spans in colour show what they say.** -/
theorem renderAll {spans : List Span} (printable : ∀ span ∈ spans, Printable span.text) :
    Shows (Span.renderAll p spans).toList (Span.renderAll .none spans).toList := by
  rw [Span.toList_renderAll, Span.toList_renderAll]
  induction spans with
  | nil => exact .nil
  | cons span spans ih =>
    rw [List.flatMap_cons, List.flatMap_cons]
    refine Shows.append ?_ (ih fun other among => printable other (List.mem_cons_of_mem _ among))
    have own := printable span List.mem_cons_self
    cases span with
    | plain text => exact own.shows
    | ink role text => exact silent.paint role own

end Palette.Silent

/-! ### Trimming -/

theorem toList_trimEnd (t : String) : (trimEnd t).toList = t.toList.rdropWhile (· == ' ') :=
  String.toList_ofList

/-- **A text with something to see** besides spaces. -/
def Visible (text : String) : Prop := ∃ c ∈ text.toList, c ≠ ' '

instance (text : String) : Decidable (Visible text) := List.decidableBEx _ text.toList

theorem Visible.append_left (visible : Visible t) (s : String) : Visible (s ++ t) := by
  obtain ⟨c, among, solid⟩ := visible
  exact ⟨c, String.toList_append ▸ List.mem_append_right _ among, solid⟩

theorem Visible.append_right (visible : Visible s) (t : String) : Visible (s ++ t) := by
  obtain ⟨c, among, solid⟩ := visible
  exact ⟨c, String.toList_append ▸ List.mem_append_left _ among, solid⟩

/-- Something is left of a text with something to see. -/
theorem visible_iff : Visible t ↔ t.toList.rdropWhile (· == ' ') ≠ [] := by
  rw [Ne, List.rdropWhile_eq_nil_iff, Visible]
  simp

/-- **What stands before something to see is not trimmed.** -/
theorem trimEnd_append (visible : Visible t) (s : String) : trimEnd (s ++ t) = s ++ trimEnd t := by
  have left : (t.toList.reverse.dropWhile (· == ' ')).isEmpty = false := by
    have left := visible_iff.1 visible
    rw [List.rdropWhile, Ne, List.reverse_eq_nil_iff] at left
    rwa [List.isEmpty_eq_false_iff]
  rw [← String.toList_inj, String.toList_append, toList_trimEnd, toList_trimEnd,
    String.toList_append, List.rdropWhile, List.reverse_append, List.dropWhile_append, left,
    if_neg Bool.false_ne_true, List.reverse_append, List.reverse_reverse]
  rfl

/-- What ends in something without spaces is not trimmed. -/
theorem trimEnd_append_of_not_mem (some : t ≠ "") (solid : ' ' ∉ t.toList) (s : String) :
    trimEnd (s ++ t) = s ++ t := by
  obtain ⟨c, cs, shape⟩ := List.exists_cons_of_ne_nil (mt String.toList_eq_nil_iff.1 some)
  have among : c ∈ t.toList := shape ▸ List.mem_cons_self
  have visible : Visible t := ⟨c, among, fun space => solid (space ▸ among)⟩
  have whole : trimEnd t = t := by
    rw [← String.toList_inj, toList_trimEnd, List.rdropWhile_eq_self_iff]
    exact fun some space => solid (beq_iff_eq.1 space ▸ List.getLast_mem some)
  rw [trimEnd_append visible, whole]

theorem digitChar_ne_space : ∀ d < 16, Nat.digitChar d ≠ ' ' := by
  decide

theorem trimEnd_append_hex (s : String) (width n : Nat) :
    trimEnd (s ++ hex width n) = s ++ hex width n := by
  refine trimEnd_append_of_not_mem (fun none => ?_) (fun space => ?_) s
  · have shown := digits?_hex width n
    rw [none] at shown
    cases shown
  · obtain ⟨d, below, same⟩ := mem_hex space
    exact digitChar_ne_space d below same.symm

theorem trimEnd_append_toString (s : String) (n : Nat) :
    trimEnd (s ++ toString n) = s ++ toString n := by
  rw [Nat.toString_eq_ofList_toDigits]
  refine trimEnd_append_of_not_mem (fun none => ?_) (fun space => ?_) s
  · exact Nat.toDigits_ne_nil (String.ofList_eq_empty_iff.1 none)
  · rw [String.toList_ofList] at space
    obtain ⟨d, below, same⟩ := mem_toDigits (by decide) space
    exact digitChar_ne_space d (by omega) same.symm

/-! ### Reading a line -/

/-- **A line reads like another one**, which it shows but for spaces at its end. -/
def Reads (line plain : String) : Prop :=
  ∃ shown : String, Shows line.toList shown.toList ∧ trimEnd shown = plain

variable {line plain : String}

theorem Reads.bare (reads : Reads line plain) : bare line = plain := by
  obtain ⟨shown, shows, trimmed⟩ := reads
  rw [Text.bare, withoutEscapes, shows.dropEscapes, String.ofList_toList, trimmed]

/-- **What is trimmed reads like what it shows, trimmed**, also behind another text. -/
theorem reads_append_trimEnd {front front' : String} (before : Shows front.toList front'.toList)
    (shows : Shows t.toList shown.toList) (visible : Visible shown) :
    Reads (front ++ trimEnd t) (front' ++ trimEnd shown) := by
  obtain ⟨cs, trimmed, same⟩ := shows.trim
  have left : Visible (String.ofList cs) := by
    rw [visible_iff, String.toList_ofList, same]
    exact visible_iff.1 visible
  refine ⟨front' ++ String.ofList cs, ?_, ?_⟩
  · rw [String.toList_append, String.toList_append, toList_trimEnd, String.toList_ofList]
    exact before.append trimmed
  · have trim : trimEnd (String.ofList cs) = trimEnd shown := by
      rw [← String.toList_inj, toList_trimEnd, toList_trimEnd, String.toList_ofList, same]
    rw [trimEnd_append left, trim]

/-- Lines with line feeds between them and behind the last one. -/
theorem intercalate_concat_empty (ls : List String) :
    "\n".intercalate (ls ++ [""]) = unlines ls := by
  rw [← String.toList_inj, toList_unlines, String.toList_intercalate, List.map_append]
  induction ls with
  | nil => rfl
  | cons line ls ih =>
    have more : ls.map String.toList ++ [""].map String.toList ≠ [] := by simp
    rw [List.map_cons, List.cons_append, List.intercalate_cons_of_ne_nil more, List.flatMap_cons, ih]
    rfl

/-- **A text is read line by line.** -/
theorem trimLines_unlines {ls plain : List String} (inline : ∀ line ∈ ls, Inline line)
    (reads : List.Forall₂ Reads ls plain) :
    trimLines (withoutEscapes (unlines ls)) = unlines plain := by
  -- the sequences are deleted line by line, and what is left of a line stays on a line
  obtain ⟨left, inline', shows, trimmed⟩ : ∃ left : List String, (∀ line ∈ left, Inline line) ∧
      Shows (unlines ls).toList (unlines left).toList ∧ left.map trimEnd = plain := by
    induction reads with
    | nil => exact ⟨[], nofun, .nil, rfl⟩
    | @cons line plain ls plains reads _ ih =>
      obtain ⟨inner, inlines⟩ := List.forall_mem_cons.1 inline
      obtain ⟨left, inline', shows, trimmed⟩ := ih inlines
      obtain ⟨shown, shows', trimmed'⟩ := reads
      refine ⟨shown :: left, List.forall_mem_cons.2 ⟨fun c among => ?_, inline'⟩, ?_, ?_⟩
      · exact inner c (shows'.subset among)
      · rw [toList_unlines] at shows ⊢
        rw [toList_unlines] at shows ⊢
        exact (shows'.append (.char (by decide) .nil)).append shows
      · rw [List.map_cons, trimmed', trimmed]
  have last : [""].map trimEnd = [""] := by decide
  rw [trimLines, withoutEscapes, shows.dropEscapes, String.ofList_toList, pieces_unlines inline',
    List.map_append, trimmed, last, intercalate_concat_empty]

end Cinematic.Text
