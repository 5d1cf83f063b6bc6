import BehaviorScript.Proofs.Lexemes
import BehaviorScript.Proofs.Printer
import Mathlib.Data.List.Forall2

/-!
# Scanning what was printed

A printed piece is followed by a space or a line end.  Neither can continue a word or begin
an arrow, so every piece is scanned as one token of its kind and with its text, and every
line as the tokens of its pieces.
-/

namespace BehaviorScript

/-!
## Single pieces
-/

def IsBreak (c : Char) : Prop :=
  c = ' ' ∨ c = '\n'

def Piece.IsWritable (quote : String -> Char) : Piece -> Prop
  | .word w => IsBareWord w
  | .quoted v => (quote v = '\'' ∨ quote v = '"') ∧ quote v ∉ v.toList ∧ '\n' ∉ v.toList
  | _ => True

structure Piece.Matches (line : Nat) (p : Piece) (t : Token) : Prop where
  kind : t.kind = p.kind
  text : t.text = p.text
  line : t.line = line

namespace Lexeme

def EndsWord (more : List Char) : Prop :=
  splitWord more = ([], more) ∧ more.head? ≠ some '>'

theorem endsWord_of_isBreak {c : Char} (hc : IsBreak c) (rest : List Char) :
    EndsWord (c :: rest) := by
  rcases hc with rfl | rfl
  · exact ⟨rfl, by simp⟩
  · exact ⟨rfl, by simp⟩

theorem head?_append_endsWord {w more : List Char}
    (hw : forall d, d ∈ w -> isWordChar d = true ∨ d = '-') (hmore : EndsWord more) :
    (w ++ more).head? ≠ some '>' := by
  cases w with
  | nil => exact hmore.2
  | cons d w =>
      intro h
      simp only [List.cons_append, List.head?_cons, Option.some.injEq] at h
      subst h
      have hbad := hw '>' List.mem_cons_self
      revert hbad
      decide

theorem splitWord_append_endsWord {w more : List Char}
    (hw : forall d, d ∈ w -> isWordChar d = true ∨ d = '-') (hmore : EndsWord more) :
    splitWord (w ++ more) = (w, more) := by
  induction w with
  | nil => exact hmore.1
  | cons d w ih =>
      have hrest : forall e, e ∈ w -> isWordChar e = true ∨ e = '-' :=
        fun e he => hw e (List.mem_cons_of_mem _ he)
      have hcont : (isWordChar d || (d == '-' && (w ++ more).head? != some '>')) = true := by
        rcases hw d List.mem_cons_self with hd | rfl
        · rw [hd, Bool.true_or]
        · rw [bne_iff_ne.mpr (head?_append_endsWord hrest hmore)]
          rfl
      rw [List.cons_append, splitWord, if_pos hcont, ih hrest]

theorem splitQuoted_append_quote {quote : Char} {v : List Char} (rest : List Char)
    (hquote : quote ∉ v) (hline : '\n' ∉ v) :
    splitQuoted quote (v ++ quote :: rest) = some (v, rest) := by
  induction v with
  | nil => simp [splitQuoted]
  | cons c v ih =>
      have hc : c ≠ quote := fun h => hquote (h ▸ List.mem_cons_self)
      have hc' : c ≠ '\n' := fun h => hline (h ▸ List.mem_cons_self)
      have hv := ih (fun h => hquote (List.mem_cons_of_mem _ h))
        (fun h => hline (List.mem_cons_of_mem _ h))
      rw [List.cons_append, splitQuoted, if_neg hc, if_neg hc', hv, Option.map_some]

theorem forall_mem_of_all {cs : List Char}
    (h : cs.all (fun c => isWordChar c || c == '-') = true) :
    forall c, c ∈ cs -> isWordChar c = true ∨ c = '-' := by
  simpa using h

theorem next?_keyword (k : Keyword) {more : List Char} (hmore : EndsWord more) :
    next? (k.symbol.toList ++ more) = some ⟨.keyword k, 0, k.symbol.toList, more⟩ := by
  have hsymbol : k.symbol.toList = '@' :: k.word.toList := by
    cases k <;> rfl
  have hword : forall d, d ∈ k.word.toList -> isWordChar d = true ∨ d = '-' := by
    apply forall_mem_of_all
    cases k <;> rfl
  have hfound : Keyword.ofWord? k.word = some k := by
    cases k <;> decide +kernel
  rw [hsymbol, List.cons_append, next?, splitWord_append_endsWord hword hmore]
  simp [hfound]

theorem next?_word {w : String} (hw : IsBareWord w) {more : List Char} (hmore : EndsWord more) :
    next? (w.toList ++ more) = some ⟨.word, 0, w.toList, more⟩ := by
  rcases hw with ⟨hempty, hhyphen, hall⟩
  have hchars := forall_mem_of_all hall
  cases hlist : w.toList with
  | nil => exact absurd (String.toList_eq_nil_iff.mp hlist) hempty
  | cons d ds =>
      rw [hlist] at hchars
      have hrest : forall e, e ∈ ds -> isWordChar e = true ∨ e = '-' :=
        fun e he => hchars e (List.mem_cons_of_mem _ he)
      have hhead := head?_append_endsWord hrest hmore
      rw [List.cons_append, next?, splitWord_append_endsWord hrest hmore]
      by_cases hd : d = '-'
      · subst hd
        have hds : ds ≠ [] := by
          rintro rfl
          exact hhyphen (String.toList_inj.mp hlist)
        simpa [hds] using hhead
      · have hword : isWordChar d = true := (hchars d List.mem_cons_self).resolve_right hd
        have hother : d ≠ ':' ∧ d ≠ '@' ∧ d ≠ '\'' ∧ d ≠ '"' := by
          refine ⟨?_, ?_, ?_, ?_⟩
          all_goals
            rintro rfl
            revert hword
            decide
        simp [hd, hword, hother]

theorem next?_quoted {quote : Char} {v : List Char} (rest : List Char)
    (hkind : quote = '\'' ∨ quote = '"') (hquote : quote ∉ v) (hline : '\n' ∉ v) :
    next? (quote :: (v ++ quote :: rest)) = some ⟨.quoted, 1, v, rest⟩ := by
  have hsplit := splitQuoted_append_quote rest hquote hline
  rcases hkind with rfl | rfl
  · simp [next?, hsplit]
  · simp [next?, hsplit]

theorem next?_operator (op : Operator) (rest : List Char) :
    next? (op.symbol.toList ++ rest) = some ⟨.operator op, 0, op.symbol.toList, rest⟩ := by
  cases op <;> rfl

end Lexeme

theorem scanFrom_piece {quote : String -> Char} {p : Piece} (hp : p.IsWritable quote)
    {c : Char} (hc : IsBreak c) (offset line : Nat) (fresh : Bool) (rest : List Char) :
    exists offset' t, p.Matches line t ∧
      scanFrom offset line fresh ((p.write quote).toList ++ c :: rest) =
        (scanFrom offset' line false (c :: rest)).cons t := by
  have hends := Lexeme.endsWord_of_isBreak hc rest
  have hnext : exists margin, Lexeme.next? ((p.write quote).toList ++ c :: rest) =
      some ⟨p.kind, margin, p.text.toList, c :: rest⟩ := by
    cases p with
    | keyword k => exact ⟨0, Lexeme.next?_keyword k hends⟩
    | word w => exact ⟨0, Lexeme.next?_word hp hends⟩
    | quoted v =>
        refine ⟨1, ?_⟩
        rcases hp with ⟨hkind, hquote, hline⟩
        have hnext := Lexeme.next?_quoted (c :: rest) hkind hquote hline
        simpa [Piece.write, Piece.kind, Piece.text] using hnext
    | operator op => exact ⟨0, Lexeme.next?_operator op (c :: rest)⟩
  rcases hnext with ⟨margin, hnext⟩
  refine ⟨_, _, ?_, scanFrom_of_next? hnext⟩
  exact ⟨rfl, String.ofList_toList, rfl⟩

/-!
## Lines
-/

def lineChars (quote : String -> Char) (ps : List Piece) : List Char :=
  [' '].intercalate (ps.map fun p => (p.write quote).toList)

theorem scanFrom_line {quote : String -> Char} {ps : List Piece} (hne : ps ≠ [])
    (hps : forall p, p ∈ ps -> p.IsWritable quote) (offset line : Nat) (fresh : Bool)
    (rest : List Char) :
    exists offset' ts, List.Forall₂ (Piece.Matches line) ps ts ∧
      scanFrom offset line fresh (lineChars quote ps ++ '\n' :: rest) =
        (scanFrom offset' line false ('\n' :: rest)).prepend ts := by
  induction ps generalizing offset fresh with
  | nil => exact absurd rfl hne
  | cons p ps ih =>
      have hp := hps p List.mem_cons_self
      cases ps with
      | nil =>
          rcases scanFrom_piece hp (Or.inr rfl) offset line fresh rest with
            ⟨offset', t, ht, hscan⟩
          refine ⟨offset', [t], List.Forall₂.cons ht List.Forall₂.nil, ?_⟩
          rw [lineChars, List.map_singleton, List.intercalate_singleton, hscan]
          rfl
      | cons q ps =>
          rcases scanFrom_piece hp (Or.inl rfl) offset line fresh
            (lineChars quote (q :: ps) ++ '\n' :: rest) with ⟨offset₁, t, ht, hscan⟩
          rcases ih (by simp) (fun p hmem => hps p (List.mem_cons_of_mem _ hmem)) (offset₁ + 1)
            false with ⟨offset₂, ts, hts, hrest⟩
          refine ⟨offset₂, t :: ts, List.Forall₂.cons ht hts, ?_⟩
          have hspace : scanFrom offset₁ line false
              (' ' :: (lineChars quote (q :: ps) ++ '\n' :: rest)) =
              scanFrom (offset₁ + 1) line false (lineChars quote (q :: ps) ++ '\n' :: rest) := by
            rw [scanFrom]
            rfl
          have hchars : lineChars quote (p :: q :: ps) ++ '\n' :: rest =
              (p.write quote).toList ++ ' ' :: (lineChars quote (q :: ps) ++ '\n' :: rest) := by
            simp [lineChars, List.intercalate_cons_cons]
          rw [hchars, hscan, hspace, hrest]
          rfl

inductive Spelled : Nat -> List (List Piece) -> List Token -> Prop where
  | nil {n : Nat} : Spelled n [] []
  | cons {n : Nat} {nl : Token} {ps : List Piece} {lines : List (List Piece)}
      {ts us : List Token} :
      nl.kind = .newline ->
      List.Forall₂ (Piece.Matches (n + 1)) ps ts ->
      Spelled (n + 1) lines us ->
      Spelled n (ps :: lines) (nl :: ts ++ us)

def textChars (quote : String -> Char) (lines : List (List Piece)) : List Char :=
  lines.flatMap fun ps => lineChars quote ps ++ ['\n']

theorem scanFrom_lines {quote : String -> Char} {lines : List (List Piece)}
    (hlines : forall ps, ps ∈ lines -> ps ≠ [] ∧ forall p, p ∈ ps -> p.IsWritable quote)
    (offset n : Nat) :
    exists us nl, Spelled n lines us ∧ nl.kind = .newline ∧
      scanFrom offset n false ('\n' :: textChars quote lines) =
        ⟨us ++ [nl], .complete (n + 1 + lines.length)⟩ := by
  induction lines generalizing offset n with
  | nil =>
      refine ⟨[], ⟨.newline, offset, 1, n, "\n"⟩, Spelled.nil, rfl, ?_⟩
      simp [textChars, scanFrom, Scan.cons]
  | cons ps lines ih =>
      rcases hlines ps List.mem_cons_self with ⟨hne, hps⟩
      rcases scanFrom_line hne hps (offset + 1) (n + 1) true (textChars quote lines) with
        ⟨offset', ts, hts, hline⟩
      rcases ih (fun qs hqs => hlines qs (List.mem_cons_of_mem _ hqs)) offset' (n + 1) with
        ⟨us, nl, hus, hnl, hrest⟩
      have hspelled : Spelled n (ps :: lines)
          ((⟨.newline, offset, 1, n, "\n"⟩ : Token) :: ts ++ us) := Spelled.cons rfl hts hus
      refine ⟨_, nl, hspelled, hnl, ?_⟩
      have hchars : textChars quote (ps :: lines) =
          lineChars quote ps ++ '\n' :: textChars quote lines := by
        simp [textChars]
      rw [hchars, scanFrom, if_pos rfl, hline, hrest]
      simp [Scan.cons, Scan.prepend]
      omega

/-!
## Printed scripts
-/

section Writable

variable {options : Options} {quote : String -> Char} (hquote : IsQuoting quote)

include hquote

theorem IsQuoting.isWritable {v : String} (hv : IsQuotable v) :
    (Piece.quoted v).IsWritable quote :=
  ⟨(hquote v hv).1, (hquote v hv).2, hv.1⟩

theorem Param.isWritable {x : Param} (hx : x.IsPrintable options) {p : Piece}
    (hp : p ∈ x.pieces options) :
    p.IsWritable quote := by
  have hvalue := hquote.isWritable hx.value
  unfold pieces at hp
  split at hp
  · split at hp
    · rw [List.mem_singleton.mp hp]
      exact hvalue
    · simp only [List.mem_cons, List.not_mem_nil, or_false] at hp
      rcases hp with rfl | rfl
      · trivial
      · exact hvalue
  · next hname =>
      simp only [List.mem_cons, List.not_mem_nil, or_false] at hp
      rcases hp with rfl | rfl | rfl
      · exact hx.label hname
      · trivial
      · exact hvalue

theorem ActionLine.isWritable {inOn : Bool} {a : ActionLine} (ha : a.IsPrintable options inOn)
    {p : Piece} (hp : p ∈ a.pieces options) :
    p.IsWritable quote := by
  rcases List.mem_append.mp hp with hkey | hcommand
  · unfold keyPieces at hkey
    split at hkey
    · next key hmessage =>
        simp only [List.mem_cons, List.not_mem_nil, or_false] at hkey
        rcases hkey with rfl | rfl
        · exact hquote.isWritable (ha.key key hmessage)
        · trivial
    · cases hkey
  · unfold commandPieces at hcommand
    split at hcommand
    · next target harrow =>
        rcases arrow?_eq_some harrow with ⟨_, x, hparams, _, _, rfl⟩
        simp only [List.mem_cons, List.not_mem_nil, or_false] at hcommand
        rcases hcommand with rfl | rfl
        · trivial
        · exact hquote.isWritable (ha.params x (hparams ▸ List.mem_cons_self)).value
    · next hname =>
        rcases List.mem_cons.mp hcommand with rfl | hparam
        · exact ha.name hname
        · rcases List.mem_flatMap.mp hparam with ⟨x, hx, hp⟩
          exact Param.isWritable hquote (ha.params x hx) hp

theorem StateBlock.lines_writable {b : StateBlock} (hb : b.IsPrintable options)
    {ps : List Piece} (hps : ps ∈ b.lines options) :
    ps ≠ [] ∧ forall p, p ∈ ps -> p.IsWritable quote := by
  rcases List.mem_cons.mp hps with rfl | hps
  · refine ⟨by simp, ?_⟩
    intro p hp
    simp only [List.mem_cons, List.not_mem_nil, or_false] at hp
    rcases hp with rfl | rfl
    · trivial
    · exact hb.name
  · rcases List.mem_flatMap.mp hps with ⟨⟨kind, block⟩, hsection, hps⟩
    rcases List.mem_cons.mp hps with rfl | hps
    · refine ⟨by simp, ?_⟩
      intro p hp
      rw [List.mem_singleton.mp hp]
      trivial
    · rcases List.mem_map.mp hps with ⟨a, ha, rfl⟩
      have hprintable := hb.actions (kind, block) hsection a ha
      exact ⟨a.pieces_ne_nil options, fun p hp => ActionLine.isWritable hquote hprintable hp⟩

end Writable

theorem Script.toList_print (options : Options) (quote : String -> Char) (s : Script) :
    (s.print options quote).toList = textChars quote (s.lines options) := by
  rw [print, String.toList_join, List.flatMap_map, textChars]
  congr 1
  funext ps
  rw [String.toList_append, String.toList_intercalate, List.map_map, lineChars]
  rfl

/--
A printed script is scanned to its end, and its tokens are those of its lines with a line end after
each of them.
-/
theorem Script.scan_print {options : Options} {quote : String -> Char} {s : Script}
    (hs : s.IsPrintable options) (hquote : IsQuoting quote) :
    exists ts us nl,
      List.Forall₂ (Piece.Matches 1)
        (.keyword .machine :: .word s.name :: s.action.pieces options) ts ∧
      Spelled 1 (s.states.flatMap (StateBlock.lines options)) us ∧ nl.kind = .newline ∧
      scan (s.print options quote) =
        ⟨ts ++ us ++ [nl], .complete ((s.lines options).length + 1)⟩ := by
  have hfirst : forall p, p ∈ (.keyword .machine :: .word s.name :: s.action.pieces options) ->
      Piece.IsWritable quote p := by
    intro p hp
    rcases List.mem_cons.mp hp with rfl | hp
    · trivial
    · rcases List.mem_cons.mp hp with rfl | hp
      · exact hs.name
      · exact ActionLine.isWritable hquote hs.action hp
  have hstates : forall ps, ps ∈ s.states.flatMap (StateBlock.lines options) ->
      ps ≠ [] ∧ forall p, p ∈ ps -> p.IsWritable quote := by
    intro ps hps
    rcases List.mem_flatMap.mp hps with ⟨b, hb, hps⟩
    exact StateBlock.lines_writable hquote (hs.states b hb) hps
  rcases scanFrom_line (by simp) hfirst 0 1 true
    (textChars quote (s.states.flatMap (StateBlock.lines options))) with ⟨offset, ts, hts, hline⟩
  rcases scanFrom_lines hstates offset 1 with ⟨us, nl, hus, hnl, hrest⟩
  refine ⟨ts, us, nl, hts, hus, hnl, ?_⟩
  have hchars : textChars quote (s.lines options) =
      lineChars quote (.keyword .machine :: .word s.name :: s.action.pieces options) ++
        '\n' :: textChars quote (s.states.flatMap (StateBlock.lines options)) := by
    simp [textChars, lines]
  have hheight : (s.lines options).length + 1 =
      1 + 1 + (s.states.flatMap (StateBlock.lines options)).length := by
    rw [lines, List.length_cons]
    omega
  rw [scan, toList_print, hchars, hline, hrest, List.append_assoc, hheight]
  rfl

end BehaviorScript
