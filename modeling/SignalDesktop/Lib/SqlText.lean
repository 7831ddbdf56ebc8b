import SignalDesktop.Lib.Sqlite

/-!
# Statements as text

`parse` reads the SQL that makes the statements of `Statement`: words, parentheses and commas
(`lex`), keywords in upper case, names without quotes. `render` writes a statement.

* `lexes_append`: the tokens of a text put together from two are the tokens of both, if no word
  runs across the join.
* `statement_tokens`: the tokens of a statement are read as that statement.
* `parse_render`: **the round trip**, for statements whose names are names.
-/

namespace SqlText

open Sqlite

/-! ## Tokens -/

inductive Token
  | word (s : String)
  | mark (c : Char)
  deriving DecidableEq

def isWordChar (c : Char) : Bool := c.isAlphanum || c == '_'

def isMark (c : Char) : Bool := c == '(' || c == ')' || c == ','

/-- The word read so far. -/
def flush (w : List Char) : List Token := if w.isEmpty then [] else [.word (String.ofList w)]

/-- The tokens of a text, with `w` the word read so far. -/
def lex (w : List Char) : List Char → Option (List Token)
  | [] => some (flush w)
  | c :: cs =>
    if isWordChar c then lex (w ++ [c]) cs
    else if c = ' ' then (flush w ++ ·) <$> lex [] cs
    else if isMark c then (flush w ++ .mark c :: ·) <$> lex [] cs
    else none

/-- The text `s` consists of the tokens `ts`. -/
def Lexes (s : String) (ts : List Token) : Prop := lex [] s.toList = some ts

instance (s : String) (ts : List Token) : Decidable (Lexes s ts) :=
  inferInstanceAs (Decidable (lex [] s.toList = some ts))

/-- No word runs from the end of `u` into `v`. -/
def Apart (u v : List Char) : Prop :=
  (∀ c ∈ u.getLast?, isWordChar c = false) ∨ ∀ c ∈ v.head?, isWordChar c = false

variable {w u v : List Char} {ts us : List Token} {a b s : String}

@[simp] theorem flush_nil : flush [] = [] := rfl

theorem flush_of_ne_nil (h : w ≠ []) : flush w = [.word (String.ofList w)] := by
  unfold flush
  rw [if_neg (by simpa using h)]

theorem lex_cons (w : List Char) (c : Char) (cs : List Char) :
    lex w (c :: cs) = if isWordChar c then lex (w ++ [c]) cs
      else if c = ' ' then (flush w ++ ·) <$> lex [] cs
      else if isMark c then (flush w ++ .mark c :: ·) <$> lex [] cs
      else none := rfl

/-- A word ends where no word character follows. -/
theorem lex_flush (hv : ∀ c ∈ v.head?, isWordChar c = false) :
    lex w v = (flush w ++ ·) <$> lex [] v := by
  cases v with
  | nil => simp [lex]
  | cons c cs =>
    have hc : isWordChar c = false := hv c rfl
    simp only [lex, hc, Bool.false_eq_true, if_false, flush_nil, List.nil_append]
    by_cases hs : c = ' '
    · rw [if_pos hs, if_pos hs]
      cases lex [] cs <;> rfl
    · rw [if_neg hs, if_neg hs]
      by_cases hm : isMark c = true
      · rw [if_pos hm, if_pos hm]
        cases lex [] cs <;> rfl
      · rw [if_neg hm, if_neg hm]
        rfl

/-- **Lexing a text in two parts.** -/
theorem lex_append (hw : ∀ c ∈ w, isWordChar c = true) (h : lex w u = some ts) (hv : Apart (w ++ u) v) :
    lex w (u ++ v) = (ts ++ ·) <$> lex [] v := by
  induction u generalizing w ts with
  | nil =>
    cases h
    rw [List.append_nil] at hv
    rcases hv with hv | hv
    · -- the word read so far ends in a word character, so there is none
      have hnil : w = [] := by
        cases hl : w.getLast? with
        | none => exact List.getLast?_eq_none_iff.1 hl
        | some c =>
          have hc := hw c (List.mem_of_getLast? hl)
          rw [hv c hl] at hc
          cases hc
      subst hnil
      cases h : lex [] v <;> simp [h]
    · exact lex_flush hv
  | cons c cs ih =>
    rw [List.cons_append]
    have hrest : Apart cs v := by
      refine hv.imp_left fun hl d hd => hl d ?_
      rw [Option.mem_def] at hd ⊢
      rw [List.getLast?_append, List.getLast?_cons, hd]
      rfl
    rw [lex_cons] at h ⊢
    by_cases hc : isWordChar c = true
    · rw [if_pos hc] at h ⊢
      refine ih (fun d hd => ?_) h (by rwa [List.append_assoc])
      rcases List.mem_append.1 hd with hd | hd
      · exact hw d hd
      · rw [List.mem_singleton.1 hd]
        exact hc
    rw [if_neg hc] at h ⊢
    by_cases hs : c = ' '
    · rw [if_pos hs] at h ⊢
      obtain ⟨us, hus, rfl⟩ := Option.map_eq_some_iff.1 h
      rw [ih (by simp) hus hrest]
      cases lex [] v <;> simp
    rw [if_neg hs] at h ⊢
    by_cases hm : isMark c = true
    · rw [if_pos hm] at h ⊢
      obtain ⟨us, hus, rfl⟩ := Option.map_eq_some_iff.1 h
      rw [ih (by simp) hus hrest]
      cases lex [] v <;> simp
    · rw [if_neg hm] at h
      cases h

theorem lexes_append (ha : Lexes a ts) (hb : Lexes b us) (h : Apart a.toList b.toList) :
    Lexes (a ++ b) (ts ++ us) := by
  unfold Lexes at *
  rw [String.toList_append, lex_append (by simp) ha h, hb]
  rfl

/-- A word alone. -/
theorem lexes_word (hs : s.toList ≠ []) (h : ∀ c ∈ s.toList, isWordChar c = true) :
    Lexes s [.word s] := by
  have hlex : ∀ (l w : List Char), (∀ c ∈ l, isWordChar c = true) → lex w l = some (flush (w ++ l)) := by
    intro l
    induction l with
    | nil =>
      intro w _
      rw [List.append_nil]
      rfl
    | cons c cs ih =>
      intro w hl
      have hcs := ih (w ++ [c]) fun d hd => hl d (List.mem_cons_of_mem c hd)
      rw [lex_cons, if_pos (hl c List.mem_cons_self), hcs, List.append_assoc]
      rfl
  unfold Lexes
  rw [hlex _ _ h, List.nil_append, flush_of_ne_nil hs, String.ofList_toList]

/-! ## Reading -/

def keywords : List String := ["SELECT", "DISTINCT", "NULL", "AS", "FROM", "ORDER", "BY", "PRAGMA"]

/-- A name as it is written without quotes. No letter case of a keyword is one. -/
structure IsName (s : String) : Prop where
  nonempty : s.toList ≠ []
  word : s.toList.all isWordChar = true
  start : s.toList.head?.any Char.isDigit = false
  keyword : String.ofList (s.toList.map Char.toUpper) ∉ keywords

instance (s : String) : Decidable (IsName s) :=
  decidable_of_iff (s.toList ≠ [] ∧ s.toList.all isWordChar = true ∧
      s.toList.head?.any Char.isDigit = false ∧
      String.ofList (s.toList.map Char.toUpper) ∉ keywords)
    ⟨fun ⟨h₁, h₂, h₃, h₄⟩ => ⟨h₁, h₂, h₃, h₄⟩, fun h => ⟨h.nonempty, h.word, h.start, h.keyword⟩⟩

def column : List Token → Option ResultColumn
  | [.word c] => if IsName c then some (.column c) else none
  | [.word "NULL", .word "AS", .word c] => if IsName c then some (.nullAs c) else none
  | _ => none

/-- What follows the result columns: the table and the column it is sorted by. -/
def tail : List Token → Option (String × Option String)
  | [.word "FROM", .word t] => if IsName t then some (t, none) else none
  | [.word "FROM", .word t, .word "ORDER", .word "BY", .word c] =>
    if IsName t ∧ IsName c then some (t, some c) else none
  | _ => none

def isFrom (t : Token) : Bool := t == .word "FROM"

/-- What follows SELECT and DISTINCT. -/
def selectBody (distinct : Bool) (ts : List Token) : Option Select := do
  let columns ← ((ts.takeWhile (!isFrom ·)).splitOn (.mark ',')).mapM column
  let (table, orderBy) ← tail (ts.dropWhile (!isFrom ·))
  return { columns, table, distinct, orderBy }

def statement : List Token → Option Statement
  | [.word "PRAGMA", .word "table_info", .mark '(', .word t, .mark ')'] =>
    if IsName t then some (.tableInfo t) else none
  | .word "SELECT" :: ts =>
    if ts.head? = some (.word "DISTINCT") then .select <$> selectBody true ts.tail
    else .select <$> selectBody false ts
  | _ => none

/-- The statement a text makes. -/
def parse (sql : String) : Option Statement := (lex [] sql.toList).bind statement

/-! ## Writing -/

def renderColumn : ResultColumn → String
  | .column c => c
  | .nullAs c => "NULL AS " ++ c

def renderOrder : Option String → String
  | none => ""
  | some c => " ORDER BY " ++ c

def render : Statement → String
  | .tableInfo t => "PRAGMA table_info(" ++ t ++ ")"
  | .select q =>
    "SELECT " ++ (if q.distinct then "DISTINCT " else "") ++
      ", ".intercalate (q.columns.map renderColumn) ++ " FROM " ++ q.table ++ renderOrder q.orderBy

theorem render_tableInfo (t : String) : render (.tableInfo t) = "PRAGMA table_info(" ++ t ++ ")" :=
  rfl

theorem render_select (q : Select) :
    render (.select q) = "SELECT " ++ (if q.distinct then "DISTINCT " else "") ++
      ", ".intercalate (q.columns.map renderColumn) ++ " FROM " ++ q.table ++ renderOrder q.orderBy :=
  rfl

/-- The name of a result column. -/
def columnName : ResultColumn → String
  | .column c | .nullAs c => c

/-- Every name of the statement is a name, and a SELECT has result columns. -/
inductive WellFormed : Statement → Prop
  | tableInfo {t : String} (ht : IsName t) : WellFormed (.tableInfo t)
  | select {q : Select} (hne : q.columns ≠ []) (hcols : ∀ c ∈ q.columns, IsName (columnName c))
      (ht : IsName q.table) (ho : ∀ c ∈ q.orderBy, IsName c) : WellFormed (.select q)

/-! ## The round trip -/

def columnTokens : ResultColumn → List Token
  | .column c => [.word c]
  | .nullAs c => [.word "NULL", .word "AS", .word c]

def columnsTokens (cols : List ResultColumn) : List Token :=
  [Token.mark ','].intercalate (cols.map columnTokens)

def orderTokens : Option String → List Token
  | none => []
  | some c => [.word "ORDER", .word "BY", .word c]

def tokens : Statement → List Token
  | .tableInfo t => [.word "PRAGMA", .word "table_info", .mark '(', .word t, .mark ')']
  | .select q =>
    .word "SELECT" :: (if q.distinct then [.word "DISTINCT"] else []) ++ columnsTokens q.columns ++
      .word "FROM" :: .word q.table :: orderTokens q.orderBy

variable {c : ResultColumn} {cols : List ResultColumn} {q : Select} {st : Statement}

theorem IsName.ne_keyword (h : IsName s) {k : String} (hk : k ∈ keywords)
    (hup : String.ofList (k.toList.map Char.toUpper) = k) : s ≠ k := by
  rintro rfl
  have := h.keyword
  rw [hup] at this
  exact this hk

theorem column_tokens (h : IsName (columnName c)) : column (columnTokens c) = some c := by
  cases c with
  | column c => exact if_pos h
  | nullAs c => exact if_pos h

theorem tail_tokens {t : String} {o : Option String} (ht : IsName t) (ho : ∀ c ∈ o, IsName c) :
    tail (.word "FROM" :: .word t :: orderTokens o) = some (t, o) := by
  cases o with
  | none => exact if_pos ht
  | some c => exact if_pos ⟨ht, ho c rfl⟩

/-- The words of a result column are not those around the columns. -/
def Inner (t : Token) : Prop := isFrom t = false ∧ t ≠ .word "DISTINCT"

theorem inner_of_isName (h : IsName s) : Inner (.word s) := by
  refine ⟨beq_eq_false_iff_ne.2 fun h' => ?_, fun h' => ?_⟩
  · exact h.ne_keyword (by decide) (by decide) (Token.word.inj h')
  · exact h.ne_keyword (by decide) (by decide) (Token.word.inj h')

/-- A result column consists of such words. -/
theorem mem_columnTokens (h : IsName (columnName c)) {t : Token} (ht : t ∈ columnTokens c) :
    t ≠ .mark ',' ∧ Inner t := by
  cases c with
  | column c =>
    rw [List.mem_singleton.1 ht]
    exact ⟨by simp, inner_of_isName h⟩
  | nullAs c =>
    rcases List.mem_cons.1 ht with rfl | ht
    · exact ⟨by decide, by decide, by decide⟩
    rcases List.mem_cons.1 ht with rfl | ht
    · exact ⟨by decide, by decide, by decide⟩
    rw [List.mem_singleton.1 ht]
    exact ⟨by simp, inner_of_isName h⟩

theorem mem_columnsTokens (h : ∀ c ∈ cols, IsName (columnName c)) :
    ∀ t ∈ columnsTokens cols, Inner t := by
  unfold columnsTokens
  induction cols with
  | nil => simp
  | cons c l ih =>
    have hc : ∀ t ∈ columnTokens c, Inner t := fun t ht =>
      (mem_columnTokens (h c List.mem_cons_self) ht).2
    have hl := ih fun d hd => h d (List.mem_cons_of_mem c hd)
    cases l with
    | nil => simpa using hc
    | cons d l =>
      intro t ht
      rw [List.map_cons, List.map_cons, List.intercalate_cons_cons, List.append_assoc] at ht
      rcases List.mem_append.1 ht with ht | ht
      · exact hc t ht
      rcases List.mem_append.1 ht with ht | ht
      · rw [List.mem_singleton.1 ht]
        exact ⟨by decide, by decide⟩
      · exact hl t ht

theorem mapM_columnTokens (h : ∀ c ∈ cols, IsName (columnName c)) :
    (cols.map columnTokens).mapM column = some cols := by
  induction cols with
  | nil => rfl
  | cons c l ih =>
    have hc := column_tokens (h c List.mem_cons_self)
    have hl := ih fun d hd => h d (List.mem_cons_of_mem c hd)
    rw [List.map_cons, List.mapM_cons, hc, hl]
    rfl

/-- The result columns are read up to FROM. -/
theorem selectBody_tokens (hne : q.columns ≠ []) (hcols : ∀ c ∈ q.columns, IsName (columnName c))
    (ht : IsName q.table) (ho : ∀ c ∈ q.orderBy, IsName c) :
    selectBody q.distinct (columnsTokens q.columns ++ .word "FROM" :: .word q.table ::
      orderTokens q.orderBy) = some q := by
  have hfrom : ∀ t ∈ columnsTokens q.columns, (!isFrom t) = true := fun t ht => by
    rw [(mem_columnsTokens hcols t ht).1]
    rfl
  have hsplit : (columnsTokens q.columns).splitOn (.mark ',') = q.columns.map columnTokens := by
    refine List.splitOn_intercalate _ (fun l hl hm => ?_) (by simpa using hne)
    obtain ⟨c, hc, rfl⟩ := List.mem_map.1 hl
    exact (mem_columnTokens (hcols c hc) hm).1 rfl
  have hread := mapM_columnTokens hcols
  unfold selectBody
  rw [List.takeWhile_append_of_pos hfrom, List.dropWhile_append_of_pos hfrom]
  simp [isFrom, hsplit, hread, tail_tokens ht ho]

theorem statement_tokens (h : WellFormed st) : statement (tokens st) = some st := by
  cases h with
  | tableInfo ht => exact if_pos ht
  | @select q hne hcols ht ho =>
    have hbody := selectBody_tokens hne hcols ht ho
    by_cases hd : q.distinct = true
    · rw [hd] at hbody
      simp [tokens, statement, hd, hbody]
    · rw [Bool.not_eq_true] at hd
      rw [hd] at hbody
      -- the first result column is not DISTINCT
      have hhead : (columnsTokens q.columns ++ .word "FROM" :: .word q.table ::
          orderTokens q.orderBy).head? ≠ some (.word "DISTINCT") := by
        intro hh
        rw [List.head?_append] at hh
        cases hcs : (columnsTokens q.columns).head? with
        | none =>
          rw [hcs] at hh
          simp at hh
        | some t =>
          rw [hcs] at hh
          cases hh
          exact (mem_columnsTokens hcols _ (List.mem_of_mem_head? hcs)).2 rfl
      have hst : tokens (.select q) = .word "SELECT" :: (columnsTokens q.columns ++
          .word "FROM" :: .word q.table :: orderTokens q.orderBy) := by
        simp [tokens, hd]
      rw [hst]
      unfold statement
      simp only
      rw [if_neg hhead, hbody]
      rfl

theorem IsName.lexes (h : IsName s) : Lexes s [.word s] := lexes_word h.nonempty (List.all_eq_true.1 h.word)

/-- Any text can follow a separator. -/
theorem apart_of_last {x : Char} (hu : u.getLast? = some x) (hx : isWordChar x = false) : Apart u v := by
  refine Or.inl fun y hy => ?_
  rw [hu] at hy
  cases hy
  exact hx

/-- A separator can follow any text. -/
theorem apart_of_head {x : Char} (hv : v.head? = some x) (hx : isWordChar x = false) : Apart u v := by
  refine Or.inr fun y hy => ?_
  rw [hv] at hy
  cases hy
  exact hx

theorem last_append {x : Char} (a : String) (hb : b.toList.getLast? = some x) :
    (a ++ b).toList.getLast? = some x := by
  rw [String.toList_append, List.getLast?_append, hb]
  rfl

theorem head_append {x : Char} (b : String) (ha : a.toList.head? = some x) :
    (a ++ b).toList.head? = some x := by
  rw [String.toList_append, List.head?_append, ha]
  rfl

theorem lexes_column (h : IsName (columnName c)) : Lexes (renderColumn c) (columnTokens c) := by
  cases c with
  | column c => exact IsName.lexes h
  | nullAs c =>
    have hkw : Lexes "NULL AS " [.word "NULL", .word "AS"] := by decide
    have hlast : "NULL AS ".toList.getLast? = some ' ' := by decide
    exact lexes_append hkw (IsName.lexes h) (apart_of_last hlast rfl)

theorem lexes_columns (h : ∀ c ∈ cols, IsName (columnName c)) :
    Lexes (", ".intercalate (cols.map renderColumn)) (columnsTokens cols) := by
  unfold columnsTokens
  induction cols with
  | nil => decide
  | cons c l ih =>
    have hc := lexes_column (h c List.mem_cons_self)
    have hl := ih fun d hd => h d (List.mem_cons_of_mem c hd)
    cases l with
    | nil => simpa using hc
    | cons d l =>
      have hcomma : Lexes ", " [.mark ','] := by decide
      have hhead : ", ".toList.head? = some ',' := by decide
      have hlast : ", ".toList.getLast? = some ' ' := by decide
      rw [List.map_cons, List.map_cons, String.intercalate_cons_cons, List.map_cons, List.map_cons,
        List.intercalate_cons_cons]
      have hstart := lexes_append hc hcomma (apart_of_head hhead rfl)
      exact lexes_append hstart hl (apart_of_last (last_append _ hlast) rfl)

theorem lexes_order {o : Option String} (ho : ∀ c ∈ o, IsName c) :
    Lexes (renderOrder o) (orderTokens o) := by
  cases o with
  | none => decide
  | some c =>
    have hkw : Lexes " ORDER BY " [.word "ORDER", .word "BY"] := by decide
    have hlast : " ORDER BY ".toList.getLast? = some ' ' := by decide
    exact lexes_append hkw (ho c rfl).lexes (apart_of_last hlast rfl)

theorem apart_order {o : Option String} : Apart u (renderOrder o).toList := by
  cases o with
  | none => exact Or.inr (by simp [renderOrder])
  | some c =>
    have hhead : " ORDER BY ".toList.head? = some ' ' := by decide
    exact apart_of_head (head_append c hhead) rfl

theorem lexes_render (h : WellFormed st) : Lexes (render st) (tokens st) := by
  cases h with
  | @tableInfo t ht =>
    have hkw : Lexes "PRAGMA table_info(" [.word "PRAGMA", .word "table_info", .mark '('] := by decide
    have hend : Lexes ")" [.mark ')'] := by decide
    have hlast : "PRAGMA table_info(".toList.getLast? = some '(' := by decide
    have hhead : ")".toList.head? = some ')' := by decide
    have hname := lexes_append hkw ht.lexes (apart_of_last hlast rfl)
    have hall := lexes_append hname hend (apart_of_head hhead rfl)
    rw [render_tableInfo]
    exact hall
  | @select q hne hcols ht ho =>
    have hstart : Lexes ("SELECT " ++ if q.distinct then "DISTINCT " else "")
        (.word "SELECT" :: if q.distinct then [.word "DISTINCT"] else []) := by
      cases q.distinct <;> decide
    have hlast : ("SELECT " ++ if q.distinct then "DISTINCT " else "").toList.getLast? = some ' ' := by
      cases q.distinct <;> decide
    have hfrom : Lexes " FROM " [.word "FROM"] := by decide
    have hfromHead : " FROM ".toList.head? = some ' ' := by decide
    have hfromLast : " FROM ".toList.getLast? = some ' ' := by decide
    have hcs := lexes_append hstart (lexes_columns hcols) (apart_of_last hlast rfl)
    have hsrc := lexes_append hcs hfrom (apart_of_head hfromHead rfl)
    have htable := lexes_append hsrc ht.lexes (apart_of_last (last_append _ hfromLast) rfl)
    have hall := lexes_append htable (lexes_order ho) apart_order
    rw [List.append_assoc, List.append_assoc] at hall
    rw [render_select]
    exact hall

/-- **The round trip.** A written statement is read back. -/
theorem parse_render (h : WellFormed st) : parse (render st) = some st := by
  have hlex : lex [] (render st).toList = some (tokens st) := lexes_render h
  unfold parse
  rw [hlex]
  exact statement_tokens h

/-! ## Running a text -/

/-- Prepare a text and read all rows: as `Database.readAll`, with a text that makes no statement
rejected (`SQLITE_ERROR`). -/
def readText {α : Type} (db : Database) (sql : String) (decode : List Cell → Except Error α) :
    Except Error (List α) :=
  match parse sql with
  | none => .error (.failure 1)
  | some st => db.readAll st decode

theorem readText_of_render {α : Type} {db : Database} {decode : List Cell → Except Error α}
    (h : WellFormed st) (hs : s = render st) : readText db s decode = db.readAll st decode := by
  unfold readText
  rw [hs, parse_render h]

end SqlText
