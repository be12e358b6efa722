import BoolQuery.Query.Failure
import BoolQuery.Query.Tree
import BoolQuery.Text.Blank

/-! Reading a query.

    query  = blank* (node blank*)*
    node   = sign? (phrase | term)
    phrase = '"' (term blank*)* '"'
    term   = one or more characters other than blanks and '"'

A sign and an opening quote commit the reader: what follows must be a body, or the rest of a
phrase. A failure is therefore reported where it occurs and not at the start of the node.
-/

set_option autoImplicit false

namespace BoolQuery.Query

open Text (isBlank)

def isTermChar (c : Char) : Bool := !isBlank c && c != '"'

/-- A part that was read, the offset after it and the characters that follow. -/
structure Reading (α : Type) where
  value : α
  offset : Nat
  rest : List Char

def readTerm (offset : Nat) (input : List Char) : Reading Term :=
  let text := input.takeWhile isTermChar
  ⟨⟨String.ofList text, offset⟩, offset + text.length, input.dropWhile isTermChar⟩

theorem length_dropWhile_le {α : Type} (drop : α → Bool) (items : List α) :
    (items.dropWhile drop).length ≤ items.length :=
  (List.dropWhile_sublist drop).length_le

theorem readTerm_rest_lt (offset : Nat) (c : Char) (rest : List Char)
    (first : isTermChar c = true) : (readTerm offset (c :: rest)).rest.length ≤ rest.length := by
  simp only [readTerm, List.dropWhile_cons, first]
  exact length_dropWhile_le isTermChar rest

/-- The terms of a phrase after its opening quote, up to and with the closing one. Blanks may
follow a term but not the opening quote. -/
def readPhrase (offset : Nat) (input : List Char) : Except Failure (Reading (List Term)) :=
  match input with
  | [] => .error ⟨offset, .phraseClose⟩
  | c :: rest =>
    if c = '"' then .ok ⟨[], offset + 1, rest⟩
    -- Blanks after a term are skipped with it, so these follow the opening quote.
    else if isBlank c then .error ⟨offset, .phraseClose⟩
    else
      let term := readTerm offset (c :: rest)
      let blanks := term.rest.takeWhile isBlank
      match readPhrase (term.offset + blanks.length) (term.rest.dropWhile isBlank) with
      | .error failure => .error failure
      | .ok others => .ok { others with value := term.value :: others.value }
termination_by input.length
decreasing_by
  have first : isTermChar c = true := by simp_all [isTermChar]
  have shorter := readTerm_rest_lt offset c rest first
  have gap := length_dropWhile_le isBlank (readTerm offset (c :: rest)).rest
  simp only [List.length_cons]
  omega

def readBody (offset : Nat) (input : List Char) : Except Failure (Reading Body) :=
  match input with
  | [] => .error ⟨offset, .term⟩
  | c :: rest =>
    if c = '"' then
      match readPhrase (offset + 1) rest with
      | .error failure => .error failure
      | .ok terms => .ok ⟨.phrase terms.value offset, terms.offset, terms.rest⟩
    else if isBlank c then .error ⟨offset, .term⟩
    else
      let term := readTerm offset (c :: rest)
      .ok ⟨.term term.value, term.offset, term.rest⟩

def readNode (offset : Nat) (input : List Char) : Except Failure (Reading Node) :=
  match input with
  | [] => .error ⟨offset, .term⟩
  | c :: rest =>
    match Sign.ofChar? c with
    | some sign =>
      match readBody (offset + 1) rest with
      | .error failure => .error failure
      | .ok body => .ok ⟨⟨some sign, body.value, offset⟩, body.offset, body.rest⟩
    | none =>
      match readBody offset (c :: rest) with
      | .error failure => .error failure
      | .ok body => .ok ⟨⟨none, body.value, offset⟩, body.offset, body.rest⟩

theorem readPhrase_rest_lt {offset : Nat} {input : List Char} {terms : Reading (List Term)}
    (done : readPhrase offset input = .ok terms) : terms.rest.length < input.length := by
  fun_induction readPhrase offset input generalizing terms with
  | case1 => simp at done
  | case2 offset rest =>
    cases done
    simp
  | case3 => simp at done
  | case4 => simp_all
  | case5 =>
    rename_i offset c rest notQuote notBlank term blanks others step ih
    cases done
    have shorter := readTerm_rest_lt offset c rest (by simp_all [isTermChar])
    have gap := length_dropWhile_le isBlank (readTerm offset (c :: rest)).rest
    have tail := ih step
    simp only [List.length_cons]
    simp only [term] at tail
    omega

theorem readBody_rest_lt {offset : Nat} {input : List Char} {body : Reading Body}
    (done : readBody offset input = .ok body) : body.rest.length < input.length := by
  cases input with
  | nil => simp [readBody] at done
  | cons c rest =>
    simp only [readBody] at done
    split at done
    · split at done
      · simp at done
      · next terms phrase =>
        cases done
        have := readPhrase_rest_lt phrase
        simp only [List.length_cons]
        omega
    · split at done
      · simp at done
      · next notQuote notBlank =>
        cases done
        have := readTerm_rest_lt offset c rest (by simp_all [isTermChar])
        simp only [List.length_cons]
        omega

theorem readNode_rest_lt {offset : Nat} {input : List Char} {node : Reading Node}
    (done : readNode offset input = .ok node) : node.rest.length < input.length := by
  cases input with
  | nil => simp [readNode] at done
  | cons c rest =>
    simp only [readNode] at done
    split at done
    · split at done
      · simp at done
      · next body read =>
        cases done
        have := readBody_rest_lt read
        simp only [List.length_cons]
        omega
    · split at done
      · simp at done
      · next body read =>
        cases done
        exact readBody_rest_lt read

def readNodes (offset : Nat) (input : List Char) : Except Failure Tree :=
  match input with
  | [] => .ok []
  | c :: rest =>
    if isBlank c then readNodes (offset + 1) rest
    else
      match _read : readNode offset (c :: rest) with
      | .error failure => .error failure
      | .ok node =>
        match readNodes node.offset node.rest with
        | .error failure => .error failure
        | .ok others => .ok (node.value :: others)
termination_by input.length
decreasing_by
  · simp
  · exact readNode_rest_lt _read

/-- The tree of a query, or the first point at which no query can go on. -/
def Tree.read (query : String) : Except Failure Tree := readNodes 0 query.toList

end BoolQuery.Query
