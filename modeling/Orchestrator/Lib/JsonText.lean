import Mathlib.Data.List.Perm.Basic
import Orchestrator.Lib.Json
import Orchestrator.Lib.JsonValue

/-!
# `Orchestrator.Lib.JsonText`: the text of a JSON value

A `JsonStyle` says how a printer writes numbers, the characters of a string and the separators, and
`print` is the printer. `Spaced S T` relates two styles that differ in a blank after each separator
of the second one and in the texts of some characters and numbers.

`Alike S T v` says that the text of `v` has no separator and that its strings and its number are
written alike. `print_eq_of_alike` and `alike_of_print` are the two directions of "the printers
write one text for `v` exactly when it is alike", and the second one holds under continuations of
the texts. That is what a template needs, in which the text of a value is followed by something
else.

Numbers are the exception to that. A printer that keeps the notation of an integral float writes
`1.0` where another one writes `1`, so one text continues the other and what comes behind decides.
`Piece` lists the ways in which two texts of one value can be related, and `flatMap_eq_iff` is about
a whole sequence of pieces: the two concatenations are one text only when every piece is. Once the
second printer is a `.0` behind, it stays behind, since the surplus is copied on by common text and
can only become longer (`alternate_ne`).

The styles are abstract. What is asked of a printer of numbers is only `num_head` and, of two of
them, `Spaced.num`.
-/

set_option autoImplicit false

namespace Orchestrator.Lib

/-- Neither text continues the other, unless they are equal. -/
def Apart (a b : List Char) : Prop := ∀ r r', a ++ r = b ++ r' → a = b

/-- A text does not continue itself. -/
theorem Apart.refl (a : List Char) : Apart a a := fun _ _ _ => rfl

/-- Texts whose first characters differ are apart. -/
theorem Apart.of_head {c d : Char} {a b : List Char} (h : c ≠ d) : Apart (c :: a) (d :: b) :=
  fun _ _ he => absurd (List.cons.inj he).1 h

/-- A common first character does not matter. -/
theorem Apart.cons {a b : List Char} (c : Char) (h : Apart a b) : Apart (c :: a) (c :: b) :=
  fun r r' he => congrArg (List.cons c) (h r r' (List.cons.inj he).2)

/-! ### Pieces -/

/-- The two texts of one value: they are equal, or the second one has the fraction `.0` of an
integral float, or neither continues the other. The conditions on a first text that begins with `0`
hold of numerals: the only integral one is `0` itself, and the others are fractions small enough for
the second printer to use an exponent. -/
inductive Piece (a b : List Char) : Prop
  | same (h : a = b)
  | point (h : b = a ++ ['.', '0']) (hzero : ∀ cs, a = '0' :: cs → cs = [])
  | apart (h : Apart a b) (hzero : ∀ cs, a = '0' :: cs →
      (∃ ds, cs = '.' :: '0' :: '0' :: ds) ∧ ∀ ds, b ≠ '0' :: ds)

/-- A piece of an output: common text, or the two texts of a value. The text of a value is not empty
and does not begin with a point. -/
def PieceOk (e : List Char × List Char) : Prop :=
  e.1 = e.2 ∨ (∃ c cs, e.1 = c :: cs ∧ c ≠ '.') ∧ e.2 ≠ [] ∧ Piece e.1 e.2

/-- Two characters in turn. -/
def alternate (c d : Char) : ℕ → List Char
  | 0 => []
  | n + 1 => c :: alternate d c n

/-- An alternation of even length goes on with its first character. -/
theorem alternate_append (c d : Char) (k : ℕ) :
    alternate c d (2 * k) ++ [c] = c :: alternate d c (2 * k) := by
  induction k with
  | zero => rfl
  | succ k ih =>
      show c :: d :: (alternate c d (2 * k) ++ [c]) = c :: d :: c :: alternate d c (2 * k)
      rw [ih]

/-- Common text copies the surplus on. Each character of it takes the first one of the surplus, and
comes back behind the others, so that the alternation only changes the character it begins with. -/
theorem alternate_common {c d : Char} {k : ℕ} {t x y : List Char}
    (h : t ++ x = alternate c d (2 * (k + 1)) ++ (t ++ y)) :
    x = alternate c d (2 * (k + 1)) ++ y ∨ x = alternate d c (2 * (k + 1)) ++ y := by
  induction t generalizing c d with
  | nil => exact Or.inl h
  | cons e t ih =>
      have hsurplus : alternate c d (2 * (k + 1)) = c :: alternate d c (2 * k + 1) := rfl
      rw [hsurplus, List.cons_append, List.cons_append, List.cons_append, List.cons.injEq] at h
      obtain ⟨rfl, h⟩ := h
      have hnext : alternate d e (2 * k + 1) ++ [e] = alternate d e (2 * (k + 1)) := by
        show d :: (alternate e d (2 * k) ++ [e]) = d :: e :: alternate d e (2 * k)
        rw [alternate_append]
      rw [List.append_cons, ← List.append_assoc, hnext, List.append_assoc] at h
      exact (ih (c := d) (d := e) h).symm

/-- The concatenation of the first texts never runs ahead of that of the second ones by some
`.0`. -/
theorem alternate_ne {pieces : List (List Char × List Char)} (hp : ∀ e ∈ pieces, PieceOk e)
    {c d : Char} (hcd : (c = '.' ∧ d = '0') ∨ (c = '0' ∧ d = '.')) (k : ℕ) :
    pieces.flatMap Prod.fst ≠ alternate c d (2 * (k + 1)) ++ pieces.flatMap Prod.snd := by
  induction pieces generalizing c d k with
  | nil => exact fun h => List.cons_ne_nil _ _ h.symm
  | cons e pieces ih =>
      have ih := fun {c d} hcd k => ih (fun x hx => hp x (List.mem_cons_of_mem e hx)) (c := c)
        (d := d) hcd k
      obtain ⟨a, b⟩ := e
      rw [List.flatMap_cons, List.flatMap_cons]
      intro h
      rcases hp (a, b) List.mem_cons_self with hsame | ⟨⟨c', cs, ha, hne⟩, hb, hpiece⟩
      · obtain rfl : a = b := hsame
        rcases alternate_common h with h | h
        · exact ih hcd k h
        · exact ih (hcd.symm.imp And.symm And.symm) k h
      · obtain rfl : a = c' :: cs := ha
        have hhead : c' = c := (List.cons.inj h).1
        -- No value begins with a point, so the surplus begins with `0`.
        rcases hcd with ⟨rfl, rfl⟩ | ⟨rfl, rfl⟩
        · exact hne hhead
        subst hhead
        cases hpiece with
        | same hsame =>
            have hsame : '0' :: cs = b := hsame
            subst hsame
            rcases alternate_common h with h | h
            · exact ih (Or.inr ⟨rfl, rfl⟩) k h
            · exact ih (Or.inl ⟨rfl, rfl⟩) k h
        | point hpoint hzero =>
            obtain rfl := hzero cs rfl
            obtain rfl : b = ['0', '.', '0'] := hpoint
            -- `0` against `0.0`: the surplus grows.
            refine ih (c := '.') (d := '0') (Or.inl ⟨rfl, rfl⟩) (k + 1) ?_
            have h : pieces.flatMap Prod.fst = alternate '.' '0' (2 * k + 1) ++
                ('0' :: '.' :: '0' :: pieces.flatMap Prod.snd) := (List.cons.inj h).2
            have hlong : alternate '.' '0' (2 * (k + 1 + 1))
                = alternate '.' '0' (2 * k + 1) ++ ['0', '.', '0'] := by
              show '.' :: '0' :: '.' :: '0' :: alternate '.' '0' (2 * k)
                = '.' :: (alternate '0' '.' (2 * k) ++ ['0', '.', '0'])
              rw [List.append_cons, alternate_append, List.cons_append, List.append_cons,
                alternate_append]
              show _ = '.' :: '0' :: '.' :: (alternate '0' '.' (2 * k) ++ ['0'])
              rw [alternate_append]
            rw [h, hlong]
            simp
        | apart hapart hzero =>
            obtain ⟨⟨ds, rfl⟩, hother⟩ := hzero cs rfl
            cases k with
            | zero =>
                obtain ⟨x, xs, rfl⟩ := List.exists_cons_of_ne_nil hb
                have hx : '0' = x := (List.cons.inj (List.cons.inj (List.cons.inj h).2).2).1
                exact hother xs (by rw [← hx])
            | succ k =>
                have hpoint : '0' = '.' := (List.cons.inj (List.cons.inj (List.cons.inj
                  (List.cons.inj h).2).2).2).1
                exact absurd hpoint (by decide)

/-- Two sequences of texts are one text only when each two are. What `PieceOk` asks of the pieces
makes sure that a difference in one of them cannot be made up for by the next. -/
theorem flatMap_eq_iff {pieces : List (List Char × List Char)} (hp : ∀ e ∈ pieces, PieceOk e) :
    pieces.flatMap Prod.fst = pieces.flatMap Prod.snd ↔ ∀ e ∈ pieces, e.1 = e.2 := by
  refine ⟨fun h => ?_, fun h => List.flatMap_congr h⟩
  induction pieces with
  | nil =>
      intro e he
      cases he
  | cons e pieces ih =>
      have hrest : ∀ x ∈ pieces, PieceOk x := fun x hx => hp x (List.mem_cons_of_mem e hx)
      rw [List.flatMap_cons, List.flatMap_cons] at h
      -- The first piece decides. If its two texts differ, then either they come apart inside it, or
      -- one has a point behind it, which no later piece can begin with.
      have heq : e.1 = e.2 := by
        rcases hp e List.mem_cons_self with hsame | ⟨-, -, hsame | ⟨hpoint, -⟩ | ⟨hapart, -⟩⟩
        · exact hsame
        · exact hsame
        · rw [hpoint, List.append_assoc] at h
          exact absurd (List.append_cancel_left h)
            (alternate_ne hrest (Or.inl ⟨rfl, rfl⟩) 0)
        · exact hapart _ _ h
      rw [heq] at h
      exact List.forall_mem_cons.mpr ⟨heq, ih hrest (List.append_cancel_left h)⟩

/-! ### String literals -/

/-- The text inside a string literal: no quote is bare, and no backslash is left open. The flag says
that the text follows a backslash. -/
def isBody : Bool → List Char → Bool
  | escaped, [] => !escaped
  | true, _ :: cs => isBody false cs
  | false, c :: cs => c ≠ '"' && isBody (decide (c = '\\')) cs

/-- A body may be continued by a text that is one on its own. -/
theorem isBody_append {escaped : Bool} {a b : List Char} (ha : isBody escaped a = true)
    (hb : isBody false b = true) : isBody escaped (a ++ b) = true := by
  induction a generalizing escaped with
  | nil =>
      cases escaped with
      | true => cases ha
      | false => exact hb
  | cons c cs ih =>
      cases escaped with
      | true => exact ih ha
      | false =>
          rw [isBody, Bool.and_eq_true] at ha
          rw [List.cons_append, isBody, Bool.and_eq_true]
          exact ⟨ha.1, ih ha.2⟩

/-- The quote that ends a literal is found in one way: a text that begins with a literal has only
one reading as a body and a rest. -/
theorem body_end {escaped : Bool} {a b : List Char} (ha : isBody escaped a = true)
    (hb : isBody escaped b = true) {r r' : List Char} (h : a ++ '"' :: r = b ++ '"' :: r') :
    a = b ∧ r = r' := by
  -- Both bodies are read from the left, and neither can end before the other one does.
  induction a generalizing escaped b with
  | nil =>
      cases escaped with
      | true => cases ha
      | false =>
          cases b with
          | nil => exact ⟨rfl, (List.cons.inj h).2⟩
          | cons d ds =>
              have hd : '"' = d := (List.cons.inj h).1
              rw [← hd] at hb
              cases hb
  | cons c cs ih =>
      cases b with
      | nil =>
          cases escaped with
          | true => cases hb
          | false =>
              have hc : c = '"' := (List.cons.inj h).1
              rw [hc] at ha
              cases ha
      | cons d ds =>
          obtain ⟨rfl, htail⟩ := List.cons.inj h
          cases escaped with
          | true =>
              obtain ⟨rfl, hr⟩ := ih ha hb htail
              exact ⟨rfl, hr⟩
          | false =>
              rw [isBody, Bool.and_eq_true] at ha hb
              obtain ⟨rfl, hr⟩ := ih ha.2 hb.2 htail
              exact ⟨rfl, hr⟩

/-! ### Printers -/

/-- How a printer writes JSON: the texts of numbers and characters, the separators, and the order of
the members.

The last three fields are what the proofs about printed texts use of it. A number does not begin
with a blank or a dot, an escaped character neither ends a literal nor leaves it open, and the
members may be reordered but not changed. -/
structure JsonStyle where
  num : Number → List Char
  /-- A character in a string literal. -/
  esc : Char → List Char
  itemSep : List Char
  keySep : List Char
  /-- The order in which the printed members of an object are written. -/
  arrange : List (String × List Char) → List (String × List Char)
  num_head : ∀ n, ∃ c cs, num n = c :: cs ∧ c ≠ ' ' ∧ c ≠ '.'
  esc_body : ∀ c, isBody false (esc c) = true
  arrange_perm : ∀ l, (arrange l).Perm l

namespace JsonStyle

variable (S T : JsonStyle)

/-- The text between the quotes. -/
def body (s : String) : List Char := s.toList.flatMap S.esc

/-- A string literal. -/
def quote (s : String) : List Char := '"' :: (S.body s ++ ['"'])

mutual

/-- The text of a value in a style. The members of an object are printed first and arranged
afterwards, by their keys, so the order is a matter of the style and not of the value. -/
def print : Json → List Char
  | .null => ['n', 'u', 'l', 'l']
  | .bool true => ['t', 'r', 'u', 'e']
  | .bool false => ['f', 'a', 'l', 's', 'e']
  | .num n => S.num n
  | .str s => S.quote s
  | .arr items => '[' :: (S.itemSep.intercalate (printItems items) ++ [']'])
  | .obj members =>
    '{' :: (S.itemSep.intercalate ((S.arrange (printMembers members)).map
      fun e => S.quote e.1 ++ S.keySep ++ e.2) ++ ['}'])

/-- The texts of the elements of an array. -/
def printItems : List Json → List (List Char)
  | [] => []
  | v :: rest => print v :: printItems rest

/-- The keys of an object with the texts of their values. -/
def printMembers : List (String × Json) → List (String × List Char)
  | [] => []
  | (k, v) :: rest => (k, print v) :: printMembers rest

end

/-- What a style writes between the quotes has no bare quote. -/
theorem isBody_body (s : String) : isBody false (S.body s) = true := by
  rw [body]
  induction s.toList with
  | nil => rfl
  | cons c cs ih => exact isBody_append (S.esc_body c) ih

/-- The text of a value begins neither with a blank nor with a point. -/
theorem print_head (v : Json) : ∃ c cs, S.print v = c :: cs ∧ c ≠ ' ' ∧ c ≠ '.' := by
  cases v with
  | null => exact ⟨_, _, rfl, by decide, by decide⟩
  | bool b => cases b <;> exact ⟨_, _, rfl, by decide, by decide⟩
  | num n => exact S.num_head n
  | str s => exact ⟨_, _, rfl, by decide, by decide⟩
  | arr items => exact ⟨_, _, rfl, by decide, by decide⟩
  | obj members => exact ⟨_, _, rfl, by decide, by decide⟩

/-- A text that begins as a value does is not a blank and more. -/
theorem print_ne_blank (v : Json) (r r' : List Char) : S.print v ++ r ≠ ' ' :: r' := by
  obtain ⟨c, cs, hv, hc, -⟩ := S.print_head v
  rw [hv]
  exact fun h => hc (List.cons.inj h).1

/-- The printed members are the texts of the members. -/
theorem mem_printMembers {members : List (String × Json)} {e : String × List Char}
    (h : e ∈ S.printMembers members) : ∃ v, e.2 = S.print v := by
  induction members with
  | nil => cases h
  | cons m rest ih =>
      rw [printMembers] at h
      rcases List.mem_cons.mp h with rfl | h
      · exact ⟨m.2, rfl⟩
      · exact ih h

/-- Texts with separators between them begin with the first one. -/
theorem intercalate_head (sep t : List Char) (ts : List (List Char)) :
    ∃ r, sep.intercalate (t :: ts) = t ++ r := by
  cases ts with
  | nil => exact ⟨[], by simp⟩
  | cons t' ts => exact ⟨sep ++ sep.intercalate (t' :: ts), by simp [List.intercalate_cons_cons]⟩

/-- The text of an object begins with a key, its separator and a value. -/
theorem print_obj (m : String × Json) (ms : List (String × Json)) :
    ∃ k v r, S.print (.obj (m :: ms))
      = '{' :: '"' :: (S.body k ++ '"' :: (S.keySep ++ (S.print v ++ r))) := by
  have hperm := S.arrange_perm (S.printMembers (m :: ms))
  cases harr : S.arrange (S.printMembers (m :: ms)) with
  | nil =>
      rw [harr] at hperm
      have hnil := hperm.nil_eq
      rw [printMembers] at hnil
      cases hnil
  | cons e es =>
      obtain ⟨v, hv⟩ := S.mem_printMembers (hperm.subset (harr ▸ List.mem_cons_self))
      obtain ⟨r, hr⟩ := intercalate_head S.itemSep (S.quote e.1 ++ S.keySep ++ e.2)
        (es.map fun e => S.quote e.1 ++ S.keySep ++ e.2)
      refine ⟨e.1, v, r ++ ['}'], ?_⟩
      rw [print, harr, List.map_cons, hr, quote, hv]
      simp

/-! ### Two styles -/

/-- The second style has a blank after each separator of the first one, neither text of a character
continues the other, and the texts of a number are a piece. -/
structure Spaced : Prop where
  items : T.itemSep = S.itemSep ++ [' ']
  /-- A list separator does not look like the fraction of a number before it. -/
  items_head : ∃ c cs, S.itemSep = c :: cs ∧ c ≠ '.'
  keys : T.keySep = S.keySep ++ [' ']
  esc : ∀ c, Apart (S.esc c) (T.esc c)
  num : ∀ n, Piece (S.num n) (T.num n)

/-- The text of the value has no separator, and the styles write its strings and its number
alike. -/
def Alike : Json → Prop
  | .null => True
  | .bool _ => True
  | .num n => S.num n = T.num n
  | .str s => ∀ c ∈ s.toList, S.esc c = T.esc c
  | .arr [] => True
  | .arr [v] => Alike v
  | .arr (_ :: _ :: _) => False
  | .obj members => members = []

variable {S T}

/-- Two bodies are one text when their characters are written alike. -/
theorem esc_eq_of_body (h : ∀ c, Apart (S.esc c) (T.esc c)) {cs : List Char}
    (heq : cs.flatMap S.esc = cs.flatMap T.esc) : ∀ c ∈ cs, S.esc c = T.esc c := by
  induction cs with
  | nil =>
      intro c hc
      cases hc
  | cons d ds ih =>
      rw [List.flatMap_cons, List.flatMap_cons] at heq
      have hd : S.esc d = T.esc d := h d _ _ heq
      rw [hd] at heq
      intro c hc
      rcases List.mem_cons.mp hc with rfl | hc
      · exact hd
      · exact ih (List.append_cancel_left heq) c hc

/-- An alike value has one text in both styles. This is the half of `alike_of_print` that computes;
the other one has to take texts apart. -/
theorem print_eq_of_alike {v : Json} (h : Alike S T v) : S.print v = T.print v := by
  induction v using Json.inductionOn with
  | null => rfl
  | bool b => cases b <;> rfl
  | num n => exact h
  | str s =>
      have hbody : S.body s = T.body s := List.flatMap_congr h
      rw [print, print, quote, quote, hbody]
  -- Alike arrays have one element at most: from two on there is a separator, which the styles write
  -- differently.
  | arr items ih =>
      cases items with
      | nil => rfl
      | cons v rest =>
          cases rest with
          | nil => simp [print, printItems, ih v List.mem_cons_self h]
          | cons w rest => exact h.elim
  | obj members ih =>
      obtain rfl : members = [] := h
      have harr : ∀ R : JsonStyle, R.arrange [] = [] := fun R => (R.arrange_perm []).eq_nil
      simp [print, printMembers, harr]

/-- Two objects with members never have one text: after the first key one text goes on with a value
and the other with a blank. -/
theorem print_obj_ne (hsp : Spaced S T) (m m' : String × Json) (ms ms' : List (String × Json))
    (r r' : List Char) : S.print (.obj (m :: ms)) ++ r ≠ T.print (.obj (m' :: ms')) ++ r' := by
  intro h
  obtain ⟨k, v, x, hS⟩ := S.print_obj m ms
  obtain ⟨k', v', x', hT⟩ := T.print_obj m' ms'
  rw [hS, hT, hsp.keys] at h
  have h : S.body k ++ '"' :: (S.keySep ++ (S.print v ++ (x ++ r)))
      = T.body k' ++ '"' :: (S.keySep ++ ' ' :: (T.print v' ++ (x' ++ r'))) := by
    simpa using h
  have hend := (body_end (S.isBody_body k) (T.isBody_body k') h).2
  exact S.print_ne_blank v _ _ (List.append_cancel_left hend)

/-- A value whose two texts are one is alike, under any continuations of the texts. Behind a number
the first continuation must not look like the fraction of it. The first separator of a longer text
settles the matter: one style writes a blank there and the other does not. -/
theorem alike_of_print (hsp : Spaced S T) {v : Json} {r r' : List Char}
    (hr : ∀ n, v = .num n → ∀ cs, r ≠ '.' :: cs)
    (h : S.print v ++ r = T.print v ++ r') : Alike S T v := by
  -- By the shape of the value.
  induction v using Json.inductionOn generalizing r r' with
  | null => trivial
  | bool b => trivial
  | num n =>
      have h : S.num n ++ r = T.num n ++ r' := h
      show S.num n = T.num n
      rcases hsp.num n with hsame | ⟨hpoint, -⟩ | ⟨hapart, -⟩
      · exact hsame
      · rw [hpoint, List.append_assoc] at h
        exact absurd (List.append_cancel_left h) (hr n rfl _)
      · exact hapart r r' h
  | str s =>
      have h : S.body s ++ '"' :: r = T.body s ++ '"' :: r' := by
        simpa [print, quote] using h
      exact esc_eq_of_body hsp.esc (body_end (S.isBody_body s) (T.isBody_body s) h).1
  | arr items ih =>
      cases items with
      | nil => trivial
      | cons v rest =>
          cases rest with
          | nil =>
              have h : S.print v ++ (']' :: r) = T.print v ++ (']' :: r') := by
                simpa [print, printItems] using h
              exact ih v List.mem_cons_self (fun _ _ cs he => absurd (List.cons.inj he).1
                (by decide)) h
          | cons w rest =>
              -- After the first element one text goes on with a value and the other with a blank.
              simp only [print, printItems, List.intercalate_cons_cons, hsp.items,
                List.cons_append, List.append_assoc, List.cons.injEq, true_and,
                List.nil_append] at h
              have hv := ih v List.mem_cons_self (fun _ _ cs he => ?_) h
              swap
              · obtain ⟨c, ds, hsep, hc⟩ := hsp.items_head
                rw [hsep] at he
                exact hc (List.cons.inj he).1
              rw [print_eq_of_alike hv] at h
              have hrest := List.append_cancel_left (List.append_cancel_left h)
              obtain ⟨x, hx⟩ := intercalate_head S.itemSep (S.print w) (S.printItems rest)
              rw [hx, List.append_assoc] at hrest
              exact S.print_ne_blank w _ _ hrest
  | obj members ih =>
      cases members with
      | nil => rfl
      | cons m ms => exact absurd h (print_obj_ne hsp m m ms ms r r')

/-- The texts of a value are a piece. A value that is no number has texts that are equal or apart,
and they begin with a quote, a bracket or a letter. -/
theorem pieceOk_print (hsp : Spaced S T) (v : Json) : PieceOk (S.print v, T.print v) := by
  obtain ⟨c, cs, hhead, -, hpoint⟩ := S.print_head v
  obtain ⟨c', cs', hhead', -⟩ := T.print_head v
  refine Or.inr ⟨⟨c, cs, hhead, hpoint⟩, by rw [hhead']; exact List.cons_ne_nil c' cs', ?_⟩
  -- A value other than a number begins alike in both styles and is told apart inside, if at all.
  have hother : (∀ n, v ≠ .num n) → (∀ ds, S.print v ≠ '0' :: ds) →
      Piece (S.print v) (T.print v) := by
    intro hnum hzero
    refine .apart (fun r r' h => ?_) fun ds hds => absurd hds (hzero ds)
    exact print_eq_of_alike (alike_of_print hsp (fun n hn => absurd hn (hnum n)) h)
  have hdigit : ∀ {d : Char} {ds : List Char}, S.print v = d :: ds → d ≠ '0' →
      ∀ es, S.print v ≠ '0' :: es :=
    fun hd hne es he => hne (List.cons.inj (hd.symm.trans he)).1
  cases v with
  | num n => exact hsp.num n
  | null => exact .same rfl
  | bool b => cases b <;> exact .same rfl
  | str s => exact hother (fun _ h => by cases h) (hdigit rfl (by decide))
  | arr items => exact hother (fun _ h => by cases h) (hdigit rfl (by decide))
  | obj members => exact hother (fun _ h => by cases h) (hdigit rfl (by decide))

end JsonStyle

end Orchestrator.Lib
