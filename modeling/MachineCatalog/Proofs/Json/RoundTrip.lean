/-
# Documents are read back

Every document is written, and what is written is read as the document, with anything
after it that ends a number; one that is nested deeper than may be read is refused for
that alone (`Json.exists_write`).  So the whole text of a document reads back
(`Json.read_render`).

The reader is given fuel.  As much as there are characters is always enough, since every
step that spends fuel is on a text that is shorter by one.
-/

import MachineCatalog.Proofs.Json.Document
import MachineCatalog.Proofs.Json.Numbers

namespace MachineCatalog
namespace Json

open Text

/-! ### Limits of nesting -/

/-- What is read at some depth when at most `limit` collections may be nested. -/
def within {α : Type} (depth limit : Nat) (x : α) : Except Problem α :=
  if depth ≤ limit then .ok x else .error .tooDeep

theorem within_zero {α : Type} (limit : Nat) (x : α) : within 0 limit x = .ok x :=
  if_pos (Nat.zero_le limit)

theorem map_within {α β : Type} (f : α → β) (depth limit : Nat) (x : α) :
    (within depth limit x).map f = within depth limit (f x) := by
  rw [within, within]
  split_ifs <;> rfl

/-- Of two parts the first is read first. -/
theorem within_bind {α β : Type} {first second limit : Nat} (x : α) (y : β) :
    (within first limit x >>= fun _ => within second limit y) =
      within (max first second) limit y := by
  rcases Nat.lt_or_ge limit first with h | h
  · have hfirst : within first limit x = .error .tooDeep := if_neg (by omega)
    have hboth : within (max first second) limit y = .error .tooDeep := if_neg (by omega)
    rw [hfirst, hboth]
    rfl
  · have hiff : max first second ≤ limit ↔ second ≤ limit := by omega
    rw [within, if_pos h, within, within]
    simp only [hiff]
    rfl

/-! ### Blanks -/

theorem chars_newLine (depth : Nat) :
    (newLine depth).chars = '\n' :: List.replicate (2 * depth) ' ' := by
  rw [newLine, chars_append, blanks, chars, chars, List.map_replicate]
  rfl

theorem skipBlanks_newLine (depth : Nat) (cs : List Char) :
    skipBlanks ((newLine depth).chars ++ cs) = skipBlanks cs := by
  rw [skipBlanks, List.dropWhile_append_of_pos]
  · rfl
  · rw [chars_newLine]
    rintro c hc
    rcases List.mem_cons.1 hc with rfl | hc
    · rfl
    · rw [List.eq_of_mem_replicate hc]
      rfl

theorem skipBlanks_cons {c : Char} (h : isBlank c = false) (cs : List Char) :
    skipBlanks (c :: cs) = c :: cs := by
  rw [skipBlanks, List.dropWhile_cons_of_neg (by simp [h])]

theorem endsNumber_newLine (depth : Nat) (cs : List Char) :
    EndsNumber ((newLine depth).chars ++ cs) := by
  rw [chars_newLine]
  rintro c hc
  obtain rfl := Option.some.inj hc
  decide

theorem endsNumber_comma (cs : List Char) : EndsNumber (',' :: cs) := by
  rintro c hc
  obtain rfl := Option.some.inj hc
  decide

/-! ### Texts of values -/

/-- The text of a value, which is read with anything after it that ends a number, and
starts with neither a blank nor a closing bracket. -/
structure Reads (t : List Char) (v : Value) : Prop where
  start : ∃ c cs, t = c :: cs ∧ isBlank c = false ∧ c ≠ ']'
  value_eq : ∀ limit fuel rest, t.length ≤ fuel → EndsNumber rest →
    value limit fuel (t ++ rest) = within (nesting v) limit (v, rest)

/-- A value without members is read in one step. -/
theorem Reads.of_scalar {t : List Char} {v : Value}
    (hs : ∃ c cs, t = c :: cs ∧ isBlank c = false ∧ c ≠ ']') (hv : nesting v = 0)
    (h : ∀ limit fuel rest, EndsNumber rest → value limit (fuel + 1) (t ++ rest) = .ok (v, rest)) :
    Reads t v := by
  refine ⟨hs, fun limit fuel rest hl hr => ?_⟩
  obtain ⟨c, cs, rfl, -⟩ := hs
  cases fuel with
  | zero => exact absurd hl (by simp)
  | succ fuel => rw [h limit fuel rest hr, hv, within_zero]

theorem reads_null : Reads (chars "null") .null :=
  .of_scalar ⟨'n', _, rfl, rfl, by decide⟩ rfl fun _ _ _ _ => rfl

theorem reads_true : Reads (chars "true") (.bool true) :=
  .of_scalar ⟨'t', _, rfl, rfl, by decide⟩ rfl fun _ _ _ _ => rfl

theorem reads_false : Reads (chars "false") (.bool false) :=
  .of_scalar ⟨'f', _, rfl, rfl, by decide⟩ rfl fun _ _ _ _ => rfl

theorem ReadsNumber.reads {t : List Char} {v : Value} (h : ReadsNumber t v)
    (hv : nesting v = 0) : Reads t v := by
  refine .of_scalar ?_ hv fun limit fuel rest hr => h.value_eq hr limit fuel
  obtain ⟨c, cs, rfl, hc | rfl⟩ := h.exists_cons
  · refine ⟨c, cs, rfl, ?_, ?_⟩
    · rw [← Bool.not_eq_true]
      intro hb
      simp only [isBlank, Bool.or_eq_true, decide_eq_true_eq] at hb
      rcases hb with ((rfl | rfl) | rfl) | rfl <;> exact absurd hc (by decide)
    · rintro rfl
      exact absurd hc (by decide)
  · exact ⟨'-', cs, rfl, rfl, by decide⟩

theorem reads_text {t : Text} (h : IsPaired t) : Reads (quoted t).chars (.text t) := by
  rw [chars_quoted]
  refine .of_scalar ⟨'"', _, rfl, rfl, by decide⟩ rfl fun limit fuel rest _ => ?_
  rw [List.cons_append, List.append_assoc, value, List.singleton_append, string_quoted,
    joined_eq_self h]
  rfl

/-! ### Lists -/

/-- What stands between two members. -/
def joint (depth : Nat) : Text := "," ++ newLine (depth + 1)

/-- What follows the start of a collection that is not empty. -/
def inside (closing : Text) (depth : Nat) (members : List Text) : Text :=
  List.intercalate (joint depth) members ++ (newLine depth ++ closing)

theorem chars_bracketed {opening closing : Text} {depth : Nat} {members : List Text}
    (h : members ≠ []) :
    (bracketed opening closing depth members).chars =
      opening.chars ++ ((newLine (depth + 1)).chars ++ (inside closing depth members).chars) := by
  have hne : members.isEmpty = false := by simpa using h
  simp [bracketed, inside, joint, hne]

theorem chars_inside_singleton (closing : Text) (depth : Nat) (t : Text) :
    (inside closing depth [t]).chars = t.chars ++ ((newLine depth).chars ++ closing.chars) := by
  simp [inside]

theorem chars_inside_cons_cons (closing : Text) (depth : Nat) (t u : Text) (ts : List Text) :
    (inside closing depth (t :: u :: ts)).chars =
      t.chars ++
        ',' :: ((newLine (depth + 1)).chars ++ (inside closing depth (u :: ts)).chars) := by
  rw [inside, inside, List.intercalate_cons_cons, joint]
  simp only [chars_append, List.append_assoc]
  rfl

/-- It starts like its first member. -/
theorem exists_inside_eq_cons {closing : Text} {depth : Nat} {t : Text} {ts : List Text} {c : Char}
    {cs : List Char} (h : t.chars = c :: cs) :
    ∃ more, (inside closing depth (t :: ts)).chars = c :: more := by
  cases ts with
  | nil => exact ⟨_, by rw [chars_inside_singleton, h]; rfl⟩
  | cons u ts => exact ⟨_, by rw [chars_inside_cons_cons, h]; rfl⟩

theorem length_chars_newLine_pos (depth : Nat) : 0 < (newLine depth).chars.length := by
  rw [chars_newLine]
  exact Nat.succ_pos _

section Items

variable {limit fuel first second : Nat} {cs rest more after : List Char} {v : Value}

/-- A member before the closing bracket is the last one. -/
theorem items_last (hv : value limit fuel cs = within first limit (v, rest))
    (hs : skipBlanks rest = ']' :: after) :
    items limit (fuel + 1) cs = within (max first 0) limit ([v], after) := by
  rw [items, hv, ← within_bind (v, rest), within, within_zero]
  split_ifs
  · simp only [ok_bind, hs]
    rfl
  · rfl

/-- After a comma the other members follow. -/
theorem items_more {vs : List Value} (hv : value limit fuel cs = within first limit (v, rest))
    (hs : skipBlanks rest = ',' :: more)
    (hvs : items limit fuel (skipBlanks more) = within second limit (vs, after)) :
    items limit (fuel + 1) cs = within (max first second) limit (v :: vs, after) := by
  rw [items, hv, ← within_bind (v, rest), within]
  split_ifs
  · simp only [ok_bind, hs, hvs]
    rw [within, within]
    split_ifs <;> rfl
  · rfl

/-- An opening bracket costs one level. -/
theorem value_list {c : Char} {vs : List Value} {depth : Nat} (hs : skipBlanks cs = c :: more)
    (hc : c ≠ ']')
    (hvs : ∀ limit, items limit fuel (c :: more) = within depth limit (vs, after)) :
    value limit (fuel + 1) ('[' :: cs) = within (depth + 1) limit (.list vs, after) := by
  cases limit with
  | zero => rfl
  | succ limit =>
    rw [value, if_neg (Nat.succ_ne_zero limit), hs]
    split
    · rename_i he
      exact absurd (List.cons.inj he).1 hc
    · rw [Nat.add_sub_cancel, hvs, map_within, within, within]
      simp only [Nat.add_le_add_iff_right]

end Items

/-- **The members of a list are read up to its closing bracket.** -/
theorem items_inside {depth : Nat} {ts : List Text} {vs : List Value}
    (h : List.Forall₂ (fun t v => Reads t.chars v) ts vs) (hne : ts ≠ []) (limit fuel : Nat)
    (rest : List Char) (hl : (inside "]" depth ts).chars.length ≤ fuel) :
    items limit fuel ((inside "]" depth ts).chars ++ rest) =
      within (nestingOfItems vs) limit (vs, rest) := by
  -- the fuel is spent on members, and stays above the length of those that are left
  induction h generalizing fuel with
  | nil => exact absurd rfl hne
  | @cons t v ts vs ht hts ih =>
    cases hts with
    | nil =>
      rw [chars_inside_singleton] at hl ⊢
      have hpos := length_chars_newLine_pos depth
      rw [List.length_append, List.length_append] at hl
      obtain ⟨fuel, rfl⟩ := Nat.exists_eq_add_of_le' (show 1 ≤ fuel by omega)
      have hclose : skipBlanks ((newLine depth).chars ++ ']' :: rest) = ']' :: rest := by
        rw [skipBlanks_newLine, skipBlanks_cons (by rfl)]
      have hv := ht.value_eq limit fuel _ (by omega) (endsNumber_newLine depth (']' :: rest))
      rw [List.append_assoc, List.append_assoc]
      exact items_last hv hclose
    | @cons u w us ws hu hus =>
      rw [chars_inside_cons_cons] at hl ⊢
      rw [List.length_append, List.length_cons, List.length_append] at hl
      obtain ⟨fuel, rfl⟩ := Nat.exists_eq_add_of_le' (show 1 ≤ fuel by omega)
      have hv := ht.value_eq limit fuel _ (by omega) (endsNumber_comma
        ((newLine (depth + 1)).chars ++ ((inside "]" depth (u :: us)).chars ++ rest)))
      have hvs := ih (List.cons_ne_nil _ _) fuel (by omega)
      rw [List.append_assoc, List.cons_append, List.append_assoc]
      refine items_more hv (skipBlanks_cons (by rfl) _) ?_
      obtain ⟨c, _, hc, hblank, -⟩ := hu.start
      obtain ⟨more, hmore⟩ : ∃ more, (inside "]" depth (u :: us)).chars = c :: more :=
        exists_inside_eq_cons hc
      rw [skipBlanks_newLine, ← hvs, hmore, List.cons_append, skipBlanks_cons hblank]

/-- **A list of values that are read is read.** -/
theorem reads_list {depth : Nat} {ts : List Text} {vs : List Value}
    (h : List.Forall₂ (fun t v => Reads t.chars v) ts vs) :
    Reads (bracketed "[" "]" depth ts).chars (.list vs) := by
  cases h with
  | nil =>
    refine ⟨⟨'[', _, rfl, rfl, by decide⟩, fun limit fuel rest hl hr => ?_⟩
    cases fuel with
    | zero => exact absurd hl (Nat.not_le.2 (Nat.succ_pos _))
    | succ fuel => cases limit <;> rfl
  | @cons t v ts vs ht hts =>
    obtain ⟨c, _, hc, hblank, hclose⟩ := ht.start
    obtain ⟨more, hmore⟩ : ∃ more, (inside "]" depth (t :: ts)).chars = c :: more :=
      exists_inside_eq_cons hc
    rw [chars_bracketed (List.cons_ne_nil _ _)]
    refine ⟨⟨'[', _, rfl, rfl, by decide⟩, fun limit fuel rest hl hr => ?_⟩
    cases fuel with
    | zero => exact absurd hl (Nat.not_le.2 (Nat.succ_pos _))
    | succ fuel =>
      have hlen : (inside "]" depth (t :: ts)).chars.length ≤ fuel := by
        rw [List.length_append, List.length_append, show (chars "[").length = 1 from rfl] at hl
        omega
      have hstart : skipBlanks ((newLine (depth + 1)).chars ++
          (inside "]" depth (t :: ts)).chars ++ rest) = c :: (more ++ rest) := by
        rw [List.append_assoc, skipBlanks_newLine, hmore, List.cons_append, skipBlanks_cons hblank]
      refine value_list hstart hclose fun limit => ?_
      rw [← List.cons_append, ← hmore]
      exact items_inside (.cons ht hts) (List.cons_ne_nil _ _) limit fuel rest hlen

/-! ### Mappings -/

/-- The text of an entry. -/
def entryText (key text : Text) : Text := quoted key ++ ": " ++ text

/-- The text of an entry whose value is read. -/
def ReadsEntry (t : Text) (f : Text × Value) : Prop :=
  ∃ text, t = entryText f.1 text ∧ IsPaired f.1 ∧ Reads text.chars f.2

theorem chars_entryText (key text : Text) :
    (entryText key text).chars =
      '"' :: (chars (key.flatMap escaped) ++ '"' :: ':' :: ' ' :: text.chars) := by
  rw [entryText, chars_append, chars_append, chars_quoted]
  simp only [List.cons_append, List.append_assoc]
  rfl

/-- The key of an entry is read, and its value stands after it. -/
theorem string_entry {key : Text} (h : IsPaired key) (cs : List Char) :
    string (chars (key.flatMap escaped) ++ '"' :: ':' :: ' ' :: cs) =
      .ok (key, ':' :: ' ' :: cs) := by
  rw [string_quoted, joined_eq_self h]

section Entries

variable {limit fuel first second : Nat} {cs rest more after : List Char} {k : Text} {v : Value}

/-- Once the key is read, the value is read. -/
theorem entries_key (hk : string cs = .ok (k, ':' :: ' ' :: more)) :
    entries limit (fuel + 1) ('"' :: cs) = (do
      let (v, rest) ← value limit fuel (skipBlanks more)
      match skipBlanks rest with
      | '\x7d' :: after => return ([(k, v)], after)
      | ',' :: rest =>
        let (fs, after) ← entries limit fuel (skipBlanks rest)
        return ((k, v) :: fs, after)
      | _ => .error .malformed) := by
  rw [entries, hk]
  rfl

/-- An entry before the closing brace is the last one. -/
theorem entries_last (hk : string cs = .ok (k, ':' :: ' ' :: more))
    (hv : value limit fuel (skipBlanks more) = within first limit (v, rest))
    (hs : skipBlanks rest = '\x7d' :: after) :
    entries limit (fuel + 1) ('"' :: cs) = within (max first 0) limit ([(k, v)], after) := by
  rw [entries_key hk, hv, ← within_bind (v, rest), within, within_zero]
  split_ifs
  · simp only [ok_bind, hs]
    rfl
  · rfl

/-- After a comma the other entries follow. -/
theorem entries_more {fs : List (Text × Value)} {others : List Char}
    (hk : string cs = .ok (k, ':' :: ' ' :: more))
    (hv : value limit fuel (skipBlanks more) = within first limit (v, rest))
    (hs : skipBlanks rest = ',' :: others)
    (hfs : entries limit fuel (skipBlanks others) = within second limit (fs, after)) :
    entries limit (fuel + 1) ('"' :: cs) =
      within (max first second) limit ((k, v) :: fs, after) := by
  rw [entries_key hk, hv, ← within_bind (v, rest), within]
  split_ifs
  · simp only [ok_bind, hs, hfs]
    rw [within, within]
    split_ifs <;> rfl
  · rfl

/-- An opening brace costs one level. -/
theorem value_mapping {c : Char} {fs : List (Text × Value)} {depth : Nat}
    (hs : skipBlanks cs = c :: more) (hc : c ≠ '\x7d')
    (hfs : ∀ limit, entries limit fuel (c :: more) = within depth limit (fs, after)) :
    value limit (fuel + 1) ('\x7b' :: cs) = within (depth + 1) limit (mappingOf fs, after) := by
  cases limit with
  | zero => rfl
  | succ limit =>
    rw [value, if_neg (Nat.succ_ne_zero limit), hs]
    split
    · rename_i he
      exact absurd (List.cons.inj he).1 hc
    · rw [Nat.add_sub_cancel, hfs, map_within, within, within]
      simp only [Nat.add_le_add_iff_right]

end Entries

/-- **The entries of a mapping are read up to its closing brace.** -/
theorem entries_inside {depth : Nat} {ts : List Text} {fs : List (Text × Value)}
    (h : List.Forall₂ ReadsEntry ts fs) (hne : ts ≠ []) (limit fuel : Nat) (rest : List Char)
    (hl : (inside "\x7d" depth ts).chars.length ≤ fuel) :
    entries limit fuel ((inside "\x7d" depth ts).chars ++ rest) =
      within (nestingOfEntries (entriesOf fs)) limit (fs, rest) := by
  induction h generalizing fuel with
  | nil => exact absurd rfl hne
  | @cons t f ts fs ht hfs ih =>
    obtain ⟨text, rfl, hpaired, hread⟩ := ht
    obtain ⟨c, cs, hc, hblank, -⟩ := hread.start
    have hskip (more : List Char) : skipBlanks (text.chars ++ more) = text.chars ++ more := by
      rw [hc, List.cons_append, skipBlanks_cons hblank]
    cases hfs with
    | nil =>
      rw [chars_inside_singleton, chars_entryText] at hl ⊢
      simp only [List.length_append, List.length_cons] at hl
      obtain ⟨fuel, rfl⟩ := Nat.exists_eq_add_of_le' (show 1 ≤ fuel by omega)
      have hclose : skipBlanks ((newLine depth).chars ++ '\x7d' :: rest) = '\x7d' :: rest := by
        rw [skipBlanks_newLine, skipBlanks_cons (by rfl)]
      have hv := hread.value_eq limit fuel _ (by omega) (endsNumber_newLine depth ('\x7d' :: rest))
      rw [← hskip] at hv
      refine Eq.trans (congrArg (entries limit (fuel + 1)) ?_)
        (entries_last (string_entry hpaired _) hv hclose)
      simp only [List.append_assoc, List.cons_append]
      rfl
    | @cons u g us gs hu hgs =>
      obtain ⟨body, hbody⟩ : ∃ body, u.chars = '"' :: body := by
        obtain ⟨other, rfl, -⟩ := hu
        exact ⟨_, chars_entryText _ _⟩
      obtain ⟨more, hmore⟩ : ∃ more, (inside "\x7d" depth (u :: us)).chars = '"' :: more :=
        exists_inside_eq_cons hbody
      rw [chars_inside_cons_cons, chars_entryText] at hl ⊢
      simp only [List.length_append, List.length_cons] at hl
      obtain ⟨fuel, rfl⟩ := Nat.exists_eq_add_of_le' (show 1 ≤ fuel by omega)
      have hv := hread.value_eq limit fuel _ (by omega) (endsNumber_comma
        ((newLine (depth + 1)).chars ++ ((inside "\x7d" depth (u :: us)).chars ++ rest)))
      have hfs := ih (List.cons_ne_nil _ _) fuel (by omega)
      have hothers : skipBlanks ((newLine (depth + 1)).chars ++
          ((inside "\x7d" depth (u :: us)).chars ++ rest)) =
            (inside "\x7d" depth (u :: us)).chars ++ rest := by
        rw [skipBlanks_newLine, hmore, List.cons_append, skipBlanks_cons (by rfl)]
      rw [← hskip] at hv
      rw [← hothers] at hfs
      refine Eq.trans (congrArg (entries limit (fuel + 1)) ?_)
        (entries_more (string_entry hpaired _) hv (skipBlanks_cons (by rfl) _) hfs)
      simp only [List.append_assoc, List.cons_append]

/-! ### Keys that differ -/

theorem put_of_not_mem {k : Text} {fields : List (Text × Value)} (h : k ∉ fields.map Prod.fst)
    (v : Value) : Value.put (.text k) v (entriesOf fields) = entriesOf (fields ++ [(k, v)]) := by
  induction fields with
  | nil => rfl
  | cons f fields ih =>
    rw [List.map_cons, List.mem_cons, not_or] at h
    have hsame : Value.same (.text f.1) (.text k) ≠ true := by
      rw [Ne, Value.same_text_iff]
      exact fun he => h.1 (Value.text.inj he).symm
    rw [entriesOf, List.map_cons, Value.put, if_neg hsame, ih h.2]
    rfl

/-- **Entries whose keys differ are all kept**, in order. -/
theorem mappingOf_eq {fields : List (Text × Value)} (h : (fields.map Prod.fst).Nodup) :
    mappingOf fields = .object fields := by
  suffices hfold : ∀ seen : List (Text × Value), ((seen ++ fields).map Prod.fst).Nodup →
      fields.foldl (fun es e => Value.put (.text e.1) e.2 es) (entriesOf seen) =
        entriesOf (seen ++ fields) from
    congrArg Value.mapping (hfold [] h)
  clear h
  induction fields with
  | nil => simp
  | cons f fields ih =>
    intro seen hnodup
    have hf : f.1 ∉ seen.map Prod.fst := by
      rw [List.map_append, List.map_cons, List.nodup_append] at hnodup
      exact fun hmem => hnodup.2.2 _ hmem _ List.mem_cons_self rfl
    rw [List.append_cons] at hnodup
    rw [List.foldl_cons, put_of_not_mem hf, ih _ hnodup, ← List.append_cons]

/-- **A mapping of values that are read is read.** -/
theorem reads_object {depth : Nat} {ts : List Text} {fs : List (Text × Value)}
    (h : List.Forall₂ ReadsEntry ts fs) (hk : (fs.map Prod.fst).Nodup) :
    Reads (bracketed "\x7b" "\x7d" depth ts).chars (.object fs) := by
  cases h with
  | nil =>
    refine ⟨⟨'\x7b', _, rfl, rfl, by decide⟩, fun limit fuel rest hl hr => ?_⟩
    cases fuel with
    | zero => exact absurd hl (Nat.not_le.2 (Nat.succ_pos _))
    | succ fuel => cases limit <;> rfl
  | @cons t f ts fs ht hfs =>
    obtain ⟨body, hbody⟩ : ∃ body, t.chars = '"' :: body := by
      obtain ⟨text, rfl, -⟩ := ht
      exact ⟨_, chars_entryText _ _⟩
    obtain ⟨more, hmore⟩ : ∃ more, (inside "\x7d" depth (t :: ts)).chars = '"' :: more :=
      exists_inside_eq_cons hbody
    rw [chars_bracketed (List.cons_ne_nil _ _), ← mappingOf_eq hk]
    refine ⟨⟨'\x7b', _, rfl, rfl, by decide⟩, fun limit fuel rest hl hr => ?_⟩
    cases fuel with
    | zero => exact absurd hl (Nat.not_le.2 (Nat.succ_pos _))
    | succ fuel =>
      have hlen : (inside "\x7d" depth (t :: ts)).chars.length ≤ fuel := by
        rw [List.length_append, List.length_append, show (chars "\x7b").length = 1 from rfl] at hl
        omega
      have hstart : skipBlanks ((newLine (depth + 1)).chars ++
          (inside "\x7d" depth (t :: ts)).chars ++ rest) = '"' :: (more ++ rest) := by
        rw [List.append_assoc, skipBlanks_newLine, hmore, List.cons_append,
          skipBlanks_cons (by rfl)]
      have hnesting :
          nesting (mappingOf (f :: fs)) = nestingOfEntries (entriesOf (f :: fs)) + 1 := by
        rw [mappingOf_eq hk]
        rfl
      rw [hnesting]
      refine value_mapping hstart (by decide) fun limit => ?_
      rw [← List.cons_append, ← hmore]
      exact entries_inside (.cons ht hfs) (List.cons_ne_nil _ _) limit fuel rest hlen

/-! ### Documents are written, and read back -/

section Write

variable {around : List Nat} {depth : Nat}

theorem exists_writeItems {vs : List Value}
    (h : ∀ v ∈ vs, ∃ t, write around depth v = .ok t ∧ Reads t.chars v) :
    ∃ ts, writeItems around depth vs = .ok ts ∧
      List.Forall₂ (fun t v => Reads t.chars v) ts vs := by
  induction vs with
  | nil => exact ⟨[], rfl, .nil⟩
  | cons v vs ih =>
    rw [List.forall_mem_cons] at h
    obtain ⟨⟨t, ht, hread⟩, hvs⟩ := h
    obtain ⟨ts, hts, hreads⟩ := ih hvs
    exact ⟨t :: ts, by rw [writeItems, ht, hts]; rfl, .cons hread hreads⟩

theorem exists_writeEntries {fs : List (Text × Value)} (hk : ∀ f ∈ fs, IsPaired f.1)
    (h : ∀ f ∈ fs, ∃ t, write around depth f.2 = .ok t ∧ Reads t.chars f.2) :
    ∃ ts, writeEntries around depth (entriesOf fs) = .ok ts ∧ List.Forall₂ ReadsEntry ts fs := by
  induction fs with
  | nil => exact ⟨[], rfl, .nil⟩
  | cons f fs ih =>
    rw [List.forall_mem_cons] at h hk
    obtain ⟨⟨t, ht, hread⟩, hfs⟩ := h
    obtain ⟨ts, hts, hreads⟩ := ih hk.2 hfs
    refine ⟨entryText f.1 t :: ts, ?_, .cons ⟨t, rfl, hk.1, hread⟩ hreads⟩
    rw [entriesOf, List.map_cons, writeEntries, ht, hts]
    rfl

/-- **A document is written at any place, and what is written reads back.** -/
theorem exists_write {v : Value} (h : IsDocument v) :
    ∃ t, write around depth v = .ok t ∧ Reads t.chars v := by
  induction h generalizing depth with
  | null => exact ⟨_, rfl, reads_null⟩
  | bool b =>
    cases b with
    | false => exact ⟨_, rfl, reads_false⟩
    | true => exact ⟨_, rfl, reads_true⟩
  | int h => exact ⟨_, by rw [write, intText, if_neg (by simp [h])],
      (readsNumber_signedDecimal h).reads rfl⟩
  | float negative h => exact ⟨_, rfl, (readsNumber_float negative h).reads rfl⟩
  | text h => exact ⟨_, rfl, reads_text h⟩
  | @list vs _ ih =>
    obtain ⟨ts, hts, hreads⟩ : ∃ ts, writeItems around (depth + 1) vs = .ok ts ∧
        List.Forall₂ (fun t v => Reads t.chars v) ts vs := exists_writeItems fun v hv => ih v hv
    exact ⟨_, by rw [write, hts]; rfl, reads_list hreads⟩
  | @object fs hk ht _ ih =>
    obtain ⟨ts, hts, hreads⟩ : ∃ ts, writeEntries around (depth + 1) (entriesOf fs) = .ok ts ∧
        List.Forall₂ ReadsEntry ts fs := exists_writeEntries ht fun f hf => ih f hf
    exact ⟨_, by rw [Value.object, write, hts]; rfl, reads_object hreads hk⟩

end Write

/-- **A document reads back from its text**, unless it is nested deeper than is read. -/
theorem read_render {v : Value} (h : IsDocument v) :
    ∃ t, render v = .ok t ∧ read t.chars = within (nesting v) nestingLimit v := by
  obtain ⟨t, ht, hread⟩ : ∃ t, write [] 0 v = .ok t ∧ Reads t.chars v := exists_write h
  obtain ⟨c, cs, hc, hblank, -⟩ := hread.start
  have hstart : skipBlanks t.chars = t.chars := by rw [hc, skipBlanks_cons hblank]
  have hv := hread.value_eq nestingLimit (2 * t.chars.length + 2) [] (by omega) endsNumber_nil
  refine ⟨t, ht, ?_⟩
  rw [List.append_nil] at hv
  rw [read, hstart, hv, within, within]
  split_ifs <;> rfl

end Json
end MachineCatalog
