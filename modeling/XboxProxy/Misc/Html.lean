import Mathlib.Data.List.Basic

/-!
# Markup and what a browser reads in it

Strings of UTF-16 code units, and the part of HTML's tokenizer that templates need: text, start
tags with double-quoted attributes, end tags, and five character references. Anything else
is refused. A template is a list of pieces; what its markup says can be computed once for all
texts that are filled in, when these are escaped.
-/

namespace XboxProxy.Misc

/-- A string of code units. -/
abbrev Units := List UInt16

/-- The code unit of an ASCII character. -/
def unit (c : Char) : UInt16 := c.toNat.toUInt16

/-- The code units of a string. -/
def utf16 (s : String) : Units :=
  s.toList.flatMap fun c =>
    if c.toNat < 0x10000 then [c.toNat.toUInt16]
    else
      [(0xd800 + (c.toNat - 0x10000) / 0x400).toUInt16,
        (0xdc00 + (c.toNat - 0x10000) % 0x400).toUInt16]

namespace Html

/-- What the tokenizer emits; an attribute is a name and a value. -/
inductive Token where
  | startTag (name : Units) (attrs : List (Units × Units))
  | endTag (name : Units)
  | char (c : UInt16)
  deriving DecidableEq

/-- An attribute whose value is being read, with the tag it belongs to. -/
structure OpenAttr where
  tag : Units
  attrs : List (Units × Units)
  name : Units
  value : Units
  deriving DecidableEq

inductive State where
  | data
  | tagOpen
  | endTagOpen
  | tagName (closes : Bool) (name : Units)
  | beforeAttrName (tag : Units) (attrs : List (Units × Units))
  | attrName (tag : Units) (attrs : List (Units × Units)) (name : Units)
  | beforeAttrValue (tag : Units) (attrs : List (Units × Units)) (name : Units)
  | attrValue (a : OpenAttr)
  | afterAttrValue (tag : Units) (attrs : List (Units × Units))
  /-- A character reference, in text or in the value of an attribute. -/
  | reference (inside : Option OpenAttr) (name : Units)
  deriving DecidableEq

def isSpace (c : UInt16) : Bool :=
  c = unit '\t' || c = unit '\n' || c = 0x0c || c = unit ' '

def isLower (c : UInt16) : Bool := unit 'a' ≤ c && c ≤ unit 'z'

/-- What stands for a code unit in the value of an attribute. -/
def attrUnit (c : UInt16) : UInt16 := if c = 0 then 0xfffd else c

/-- The five character references, without the ampersand and the semicolon. -/
def references : List (Units × UInt16) :=
  [(utf16 "amp", unit '&'), (utf16 "lt", unit '<'), (utf16 "gt", unit '>'),
    (utf16 "quot", unit '"'), (utf16 "#39", unit '\'')]

def referenced (name : Units) : Option UInt16 :=
  (references.find? fun r => r.1 = name).map Prod.snd

/-- What a reference adds, in text or in the value of an attribute. -/
def resolve : Option OpenAttr → UInt16 → State × List Token
  | none, r => (.data, [.char r])
  | some a, r => (.attrValue { a with value := a.value ++ [r] }, [])

/-- One code unit. -/
def step (s : State) (c : UInt16) : Option (State × List Token) :=
  match s with
  | .data =>
    if c = unit '<' then some (.tagOpen, [])
    else if c = unit '&' then some (.reference none [], [])
    else some (.data, [.char c])
  | .tagOpen =>
    if c = unit '/' then some (.endTagOpen, [])
    else if isLower c then some (.tagName false [c], [])
    else none
  | .endTagOpen => if isLower c then some (.tagName true [c], []) else none
  | .tagName closes name =>
    if c = unit '>' then
      some (.data, [if closes then .endTag name else .startTag name []])
    else if isSpace c && !closes then some (.beforeAttrName name [], [])
    else if isLower c then some (.tagName closes (name ++ [c]), [])
    else none
  | .beforeAttrName tag attrs =>
    if isSpace c then some (.beforeAttrName tag attrs, [])
    else if isLower c then some (.attrName tag attrs [c], [])
    else none
  | .attrName tag attrs name =>
    if c = unit '=' then some (.beforeAttrValue tag attrs name, [])
    else if isLower c then some (.attrName tag attrs (name ++ [c]), [])
    else none
  | .beforeAttrValue tag attrs name =>
    if c = unit '"' then some (.attrValue ⟨tag, attrs, name, []⟩, []) else none
  | .attrValue a =>
    if c = unit '"' then some (.afterAttrValue a.tag (a.attrs ++ [(a.name, a.value)]), [])
    else if c = unit '&' then some (.reference (some a) [], [])
    else some (.attrValue { a with value := a.value ++ [attrUnit c] }, [])
  | .afterAttrValue tag attrs =>
    if c = unit '>' then some (.data, [.startTag tag attrs])
    else if isSpace c then some (.beforeAttrName tag attrs, [])
    else none
  | .reference inside name =>
    if c = unit ';' then (referenced name).map (resolve inside)
    else some (.reference inside (name ++ [c]), [])

/-- A stretch of code units, and the tokens they emit. -/
def feed : State → Units → Option (State × List Token)
  | s, [] => some (s, [])
  | s, c :: cs => do
    let (t, out) ← step s c
    let (u, more) ← feed t cs
    return (u, out ++ more)

theorem feed_append (s : State) (xs ys : Units) :
    feed s (xs ++ ys) =
      (feed s xs).bind fun r => (feed r.1 ys).map fun q => (q.1, r.2 ++ q.2) := by
  induction xs generalizing s with
  | nil => simp [feed]
  | cons c xs ih =>
    rw [List.cons_append, feed, feed]
    cases step s c with
    | none => rfl
    | some first =>
      simp only [Option.bind_eq_bind, Option.bind_some, Option.pure_def, ih]
      cases feed first.1 xs with
      | none => rfl
      | some r =>
        simp only [Option.bind_some]
        cases feed r.1 ys with
        | none => rfl
        | some q => simp

/-- Newlines are normalized before the input is read; `afterCr` says that a carriage return came
before. -/
def normalize : Bool → Units → Units
  | _, [] => []
  | afterCr, c :: cs =>
    if c = unit '\r' then unit '\n' :: normalize true cs
    else if afterCr && c = unit '\n' then normalize false cs
    else c :: normalize false cs

def normalizeNewlines (cs : Units) : Units := normalize false cs

/-- The tokens of an input that ends in text. -/
def tokenize (cs : Units) : Option (List Token) :=
  match feed .data (normalizeNewlines cs) with
  | some (.data, out) => some out
  | _ => none

/-! ## Templates -/

/-- A text without markup or carriage returns. -/
structure PlainText where
  units : Units
  plain : unit '<' ∉ units ∧ unit '&' ∉ units ∧ unit '\r' ∉ units

/-- A text without what would be markup or a carriage return. -/
def PlainText.ofString (s : String) : PlainText where
  units := (utf16 s).filter fun c => !(c = unit '<' || c = unit '&' || c = unit '\r')
  plain := by simp

/-- What a template consists of: its own markup, plain texts, and texts to escape. -/
inductive Piece where
  | markup (s : String)
  | plain (text : PlainText)
  | escaped (text : Units)

def Piece.render (esc : UInt16 → Units) : Piece → Units
  | markup s => utf16 s
  | plain text => text.units
  | escaped text => text.flatMap esc

def render (esc : UInt16 → Units) (ps : List Piece) : Units := ps.flatMap (·.render esc)

/-- A code unit is replaced by a reference to it, or stays; those that would end a text do not. -/
def Escapes (esc : UInt16 → Units) : Prop :=
  ∀ c, (∃ name, referenced name = some c ∧ esc c = unit '&' :: name ++ [unit ';']) ∨
    (esc c = [c] ∧ c ≠ unit '&' ∧ c ≠ unit '<' ∧ c ≠ unit '"')

/-- What is read of a piece; a text stands in the data or in the value of an attribute. -/
def readPiece : State → Piece → Option (State × List Token)
  | s, .markup m => feed s (utf16 m)
  | .data, .plain text => some (.data, text.units.map .char)
  | .data, .escaped text => some (.data, text.map .char)
  | .attrValue a, .escaped text =>
    some (.attrValue { a with value := a.value ++ text.map attrUnit }, [])
  | _, _ => none

/-- What is read of a template. -/
def read : State → List Piece → Option (State × List Token)
  | s, [] => some (s, [])
  | s, p :: ps => do
    let (t, out) ← readPiece s p
    let (u, more) ← read t ps
    return (u, out ++ more)

/-- A piece after the newlines are normalized. -/
def Piece.normalized : Piece → Piece
  | escaped text => escaped (normalizeNewlines text)
  | p => p

/-- Markup that no newline is normalized in, whatever stands before it. -/
def Settled (cs : Units) : Prop :=
  cs ≠ [] ∧ cs.head? ≠ some (unit '\n') ∧ unit '\r' ∉ cs

instance (cs : Units) : Decidable (Settled cs) :=
  inferInstanceAs (Decidable (_ ∧ _ ∧ _))

/-- Markup that is text. -/
def Word (m : String) : Prop :=
  Settled (utf16 m) ∧ unit '<' ∉ utf16 m ∧ unit '&' ∉ utf16 m

instance (m : String) : Decidable (Word m) :=
  inferInstanceAs (Decidable (_ ∧ _ ∧ _))

/-- Markup follows each text to escape; `afterText` says that one came before. -/
def apart : Bool → List Piece → Bool
  | _, [] => true
  | _, .markup m :: ps => decide (Settled (utf16 m)) && apart false ps
  | afterText, .plain _ :: ps => !afterText && apart false ps
  | afterText, .escaped _ :: ps => !afterText && apart true ps

/-! ## Escaped texts -/

/-- The references end where they should, break no line and stand for visible characters. -/
theorem referenced_eq_some {name : Units} {c : UInt16} (refers : referenced name = some c) :
    unit ';' ∉ name ∧ unit '\r' ∉ name ∧ unit '\n' ∉ name ∧ c ≠ 0 ∧ c ≠ unit '\r' ∧
      c ≠ unit '\n' := by
  have each : ∀ r ∈ references, unit ';' ∉ r.1 ∧ unit '\r' ∉ r.1 ∧ unit '\n' ∉ r.1 ∧
      r.2 ≠ 0 ∧ r.2 ≠ unit '\r' ∧ r.2 ≠ unit '\n' := by decide
  obtain ⟨r, found, rfl⟩ := Option.map_eq_some_iff.mp refers
  have named : r.1 = name := by simpa using List.find?_some found
  rw [← named]
  exact each r (List.mem_of_find?_eq_some found)

theorem feed_name {inside : Option OpenAttr} {name : Units} (closed : unit ';' ∉ name)
    (before : Units) : feed (.reference inside before) name =
      some (.reference inside (before ++ name), []) := by
  induction name generalizing before with
  | nil => simp [feed]
  | cons c name ih =>
    obtain ⟨first, rest⟩ := not_or.mp (List.mem_cons.not.mp closed)
    simp [feed, step, Ne.symm first, ih rest]

/-- A reference is read by its semicolon. -/
theorem feed_reference (inside : Option OpenAttr) {s : State} {name : Units} {c : UInt16}
    (opens : step s (unit '&') = some (.reference inside [], []))
    (refers : referenced name = some c) :
    feed s (unit '&' :: name ++ [unit ';']) = some (resolve inside c) := by
  have named : feed (.reference inside []) name = some (.reference inside name, []) :=
    feed_name (referenced_eq_some refers).1 []
  have semicolon : feed (.reference inside name) [unit ';'] = some (resolve inside c) := by
    simp [feed, step, refers]
  rw [List.cons_append, feed, opens]
  simp [feed_append, named, semicolon]

section Escaped
variable {esc : UInt16 → Units} (escapes : Escapes esc)

include escapes in
theorem feed_esc (c : UInt16) : feed .data (esc c) = some (.data, [.char c]) := by
  rcases escapes c with ⟨name, refers, replaced⟩ | ⟨kept, ampersand, less, -⟩
  · rw [replaced]
    exact feed_reference none rfl refers
  · simp [kept, feed, step, ampersand, less]

include escapes in
theorem feed_esc_value (c : UInt16) (a : OpenAttr) : feed (.attrValue a) (esc c) =
    some (.attrValue { a with value := a.value ++ [attrUnit c] }, []) := by
  rcases escapes c with ⟨name, refers, replaced⟩ | ⟨kept, ampersand, -, quote⟩
  · obtain ⟨-, -, -, visible, -⟩ := referenced_eq_some refers
    rw [replaced, attrUnit, if_neg visible]
    exact feed_reference (some a) rfl refers
  · simp [kept, feed, step, ampersand, quote]

include escapes in
theorem feed_text (text : Units) :
    feed .data (text.flatMap esc) = some (.data, text.map .char) := by
  induction text with
  | nil => rfl
  | cons c text ih => simp [List.flatMap_cons, feed_append, feed_esc escapes, ih]

include escapes in
theorem feed_value (text : Units) (a : OpenAttr) : feed (.attrValue a) (text.flatMap esc) =
    some (.attrValue { a with value := a.value ++ text.map attrUnit }, []) := by
  induction text generalizing a with
  | nil => simp [feed]
  | cons c text ih => simp [List.flatMap_cons, feed_append, feed_esc_value escapes, ih]

theorem feed_plain {cs : Units} (less : unit '<' ∉ cs) (ampersand : unit '&' ∉ cs) :
    feed .data cs = some (.data, cs.map .char) := by
  induction cs with
  | nil => rfl
  | cons c cs ih =>
    obtain ⟨notLess, less⟩ := not_or.mp (List.mem_cons.not.mp less)
    obtain ⟨notAmpersand, ampersand⟩ := not_or.mp (List.mem_cons.not.mp ampersand)
    simp [feed, step, Ne.symm notLess, Ne.symm notAmpersand, ih less ampersand]

include escapes in
/-- What is read of a template is read of the text it renders to. -/
theorem feed_render {s t : State} {ps : List Piece} {out : List Token}
    (reads : read s ps = some (t, out)) : feed s (render esc ps) = some (t, out) := by
  induction ps generalizing s out with
  | nil => exact reads
  | cons p ps ih =>
    simp only [read, Option.bind_eq_bind, Option.bind_eq_some_iff, Option.pure_def,
      Option.some.injEq, Prod.mk.injEq] at reads
    obtain ⟨⟨u, first⟩, here, ⟨v, more⟩, rest, rfl, rfl⟩ := reads
    have piece : feed s (p.render esc) = some (u, first) := by
      cases p with
      | markup m => exact here
      | plain text =>
        cases s with
        | data => exact (feed_plain text.plain.1 text.plain.2.1).trans here
        | _ => cases here
      | escaped text =>
        cases s with
        | data => exact (feed_text escapes text).trans here
        | attrValue a => exact (feed_value escapes text a).trans here
        | _ => cases here
    have later := ih rest
    unfold render at later ⊢
    rw [List.flatMap_cons, feed_append, piece]
    simp [later]

/-! ## Newlines -/

/-- What follows is normalized by itself, up to a carriage return that stood before it. -/
theorem normalize_append (d : Bool) (xs ys : Units) :
    ∃ d', normalize d (xs ++ ys) = normalize d xs ++ normalize d' ys := by
  induction xs generalizing d with
  | nil => exact ⟨d, rfl⟩
  | cons c xs ih =>
    rw [List.cons_append, normalize, normalize]
    split
    · obtain ⟨d', rest⟩ := ih true
      exact ⟨d', by rw [rest, List.cons_append]⟩
    · split
      · exact ih false
      · obtain ⟨d', rest⟩ := ih false
        exact ⟨d', by rw [rest, List.cons_append]⟩

theorem normalize_plain {xs : Units} (plain : unit '\r' ∉ xs) (ys : Units) :
    normalize false (xs ++ ys) = xs ++ normalize false ys := by
  induction xs with
  | nil => rfl
  | cons c xs ih =>
    obtain ⟨first, rest⟩ := not_or.mp (List.mem_cons.not.mp plain)
    rw [List.cons_append, normalize, if_neg (Ne.symm first), ih rest]
    simp

theorem normalize_settled {xs : Units} (settled : Settled xs) (d : Bool) (ys : Units) :
    normalize d (xs ++ ys) = xs ++ normalize false ys := by
  obtain ⟨nonempty, start, plain⟩ := settled
  cases xs with
  | nil => exact absurd rfl nonempty
  | cons c xs =>
    have newline : c ≠ unit '\n' := fun here => start (by rw [here, List.head?_cons])
    obtain ⟨first, rest⟩ := not_or.mp (List.mem_cons.not.mp plain)
    rw [List.cons_append, normalize, if_neg (Ne.symm first), normalize_plain rest]
    simp [newline]

include escapes in
/-- Escaping leaves the line breaks as they are and adds none. -/
theorem esc_line (c : UInt16) :
    esc c = [c] ∨ Settled (esc c) ∧ c ≠ unit '\r' ∧ c ≠ unit '\n' := by
  rcases escapes c with ⟨name, refers, replaced⟩ | ⟨kept, -⟩
  · obtain ⟨-, carriage, -, -, others⟩ := referenced_eq_some refers
    have start : unit '&' ≠ unit '\n' := by decide
    have ends : unit '\r' ≠ unit '&' ∧ unit '\r' ≠ unit ';' := by decide
    exact .inr ⟨by simp [Settled, replaced, start, carriage, ends], others⟩
  · exact .inl kept

include escapes in
theorem normalize_escaped (d : Bool) (text : Units) :
    normalize d (text.flatMap esc) = (normalize d text).flatMap esc := by
  induction text generalizing d with
  | nil => rfl
  | cons c text ih =>
    rw [List.flatMap_cons]
    rcases esc_line escapes c with kept | ⟨settled, carriage, newline⟩
    · have line : esc (unit '\n') = [unit '\n'] := by
        rcases esc_line escapes (unit '\n') with same | ⟨-, -, differs⟩
        · exact same
        · exact absurd rfl differs
      rw [kept, List.singleton_append, normalize, normalize]
      split_ifs
      · rw [ih, List.flatMap_cons, line, List.singleton_append]
      · exact ih false
      · rw [ih, List.flatMap_cons, kept, List.singleton_append]
    · rw [normalize_settled settled, ih, normalize, if_neg carriage]
      simp [newline]

include escapes in
theorem normalize_render {ps : List Piece} {afterText d : Bool} (separate : apart afterText ps)
    (fresh : afterText = false → d = false) :
    normalize d (render esc ps) = render esc (ps.map Piece.normalized) := by
  induction ps generalizing afterText d with
  | nil => rfl
  | cons p ps ih =>
    unfold render at ih ⊢
    rw [List.flatMap_cons, List.map_cons, List.flatMap_cons]
    cases p with
    | markup m =>
      obtain ⟨settled, later⟩ := Bool.and_eq_true_iff.mp separate
      rw [Piece.render, normalize_settled (of_decide_eq_true settled), ih later fun _ => rfl]
      rfl
    | plain text =>
      obtain ⟨first, later⟩ := Bool.and_eq_true_iff.mp separate
      rw [Piece.render, fresh (Bool.not_eq_true' _ |>.mp first),
        normalize_plain text.plain.2.2, ih later fun _ => rfl]
      rfl
    | escaped text =>
      obtain ⟨first, later⟩ := Bool.and_eq_true_iff.mp separate
      obtain ⟨d', rest⟩ := normalize_append d (text.flatMap esc) (ps.flatMap (·.render esc))
      rw [Piece.render, rest, ih later nofun, fresh (Bool.not_eq_true' _ |>.mp first),
        normalize_escaped escapes]
      rfl

end Escaped

/-! ## Composition -/

theorem read_append (s : State) (ps qs : List Piece) :
    read s (ps ++ qs) =
      (read s ps).bind fun r => (read r.1 qs).map fun q => (q.1, r.2 ++ q.2) := by
  induction ps generalizing s with
  | nil => simp [read]
  | cons p ps ih =>
    rw [List.cons_append, read, read]
    cases readPiece s p with
    | none => rfl
    | some first =>
      simp only [Option.bind_eq_bind, Option.bind_some, Option.pure_def, ih]
      cases read first.1 ps with
      | none => rfl
      | some r =>
        simp only [Option.bind_some]
        cases read r.1 qs with
        | none => rfl
        | some q => simp

/-- A part of a template that is read as `out` once its newlines are normalized; `a` says that it
may follow a text to escape, `b` that markup must follow it. -/
structure Reads (a b : Bool) (ps : List Piece) (out : List Token) : Prop where
  separate : ∀ qs, apart b qs → apart a (ps ++ qs)
  reads : read .data (ps.map Piece.normalized) = some (.data, out)

namespace Reads
variable {a b c : Bool} {ps qs : List Piece} {out more : List Token}

theorem append (first : Reads a b ps out) (second : Reads b c qs more) :
    Reads a c (ps ++ qs) (out ++ more) where
  separate rs later := by
    rw [List.append_assoc]
    exact first.separate _ (second.separate rs later)
  reads := by simp [read_append, first.reads, second.reads]

theorem markup {m : String} (settled : Settled (utf16 m))
    (read : feed .data (utf16 m) = some (.data, out)) : Reads a false [.markup m] out where
  separate qs later := by simp [apart, settled, later]
  reads := by simp [Html.read, readPiece, Piece.normalized, read]

theorem word {m : String} (word : Word m) : Reads a false [.markup m] ((utf16 m).map .char) :=
  markup word.1 (feed_plain word.2.1 word.2.2)

theorem plain (text : PlainText) : Reads false false [.plain text] (text.units.map .char) where
  separate qs later := by simp [apart, later]
  reads := by simp [Html.read, readPiece, Piece.normalized]

theorem escaped (text : Units) :
    Reads false true [.escaped text] ((normalizeNewlines text).map .char) where
  separate qs later := by simp [apart, later]
  reads := by simp [Html.read, readPiece, Piece.normalized]

theorem flatten {parts : List (List Piece)} {outs : List (List Token)}
    (each : List.Forall₂ (Reads false false) parts outs) :
    Reads false false parts.flatten outs.flatten := by
  induction each with
  | nil => exact ⟨fun _ later => later, rfl⟩
  | cons first _ rest => exact first.append rest

end Reads

/-- The tokens of a rendered template. -/
theorem Reads.tokenize {esc : UInt16 → Units} (escapes : Escapes esc) {b : Bool} {ps : List Piece}
    {out : List Token} (whole : Reads false b ps out) :
    tokenize (render esc ps) = some out := by
  have separate := whole.separate [] rfl
  rw [List.append_nil] at separate
  unfold Html.tokenize normalizeNewlines
  rw [normalize_render escapes separate fun _ => rfl, feed_render escapes whole.reads]

end Html
end XboxProxy.Misc
