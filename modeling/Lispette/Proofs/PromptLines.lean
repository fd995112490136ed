import Lispette.CommandLine.Prompt
import Lispette.Proofs.Piece

/-!
The sources that are entered at the prompt. They are the lines of the input as text, without white
space at their ends; so none of them holds a line break.
-/

namespace Lispette

theorem Text.isBlank_newline : isBlank '\n' = true := by decide

/-- What is left of a text does not end in white space. -/
theorem Text.isBlank_of_getLast?_trimEnd {cs : List Char} {c : Char}
    (last : (trimEnd cs).getLast? = some c) : isBlank c = false := by
  rw [trimEnd, List.getLast?_reverse] at last
  exact Front.dropWhile_stops isBlank cs.reverse c last

/-- The bytes of a text are those of its characters in order. -/
theorem eq_flatMap_of_decodeText {bytes : List UInt8} {text : String}
    (decoded : decodeText bytes = some text) :
    bytes = text.toList.flatMap String.utf8EncodeChar := by
  unfold decodeText String.fromUTF8? at decoded
  split at decoded
  · next valid =>
    cases decoded
    have encoded := String.utf8Encode_toList (b := String.fromUTF8 ⟨bytes.toArray⟩ valid)
    have same := congrArg (·.data.toList) encoded
    simp only [List.utf8Encode, List.data_toByteArray] at same
    exact same.symm
  · cases decoded

theorem Output.append_assoc (a b c : Output) : a ++ b ++ c = a ++ (b ++ c) := by
  show Output.mk _ _ = Output.mk _ _
  simp only [out_append, err_append, String.append_assoc]

namespace Prompt

/-- A line break is the last byte of its line. -/
theorem not_mem_dropLast_of_mem_inputLines {bytes line : List UInt8}
    (member : line ∈ inputLines bytes) : 10 ∉ line.dropLast := by
  induction bytes generalizing line with
  | nil => cases member
  | cons b bs ih =>
    unfold inputLines at member
    by_cases newline : b = 10
    · rw [if_pos newline] at member
      rcases List.mem_cons.mp member with rfl | later
      · exact List.not_mem_nil
      · exact ih later
    · rw [if_neg newline] at member
      cases further : inputLines bs with
      | nil =>
        rw [further] at member
        rw [List.mem_singleton.mp member]
        exact List.not_mem_nil
      | cons first lines =>
        rw [further] at ih member
        rcases List.mem_cons.mp member with rfl | later
        · cases first with
          | nil => exact List.not_mem_nil
          | cons c cs =>
            rw [List.dropLast_cons_of_ne_nil (List.cons_ne_nil c cs)]
            exact List.not_mem_cons_of_ne_of_not_mem (Ne.symm newline) (ih List.mem_cons_self)
        · exact ih (List.mem_cons_of_mem _ later)

theorem not_mem_of_source? {bytes line : List UInt8} {source : String}
    (member : line ∈ inputLines bytes) (said : source? line = some source) :
    '\n' ∉ source.toList := by
  simp only [source?, Option.bind_eq_bind, Option.bind_eq_some_iff] at said
  obtain ⟨text, decoded, trimmed⟩ := said
  obtain rfl : String.ofList (Text.trimEnd text.toList) = source := by
    split at trimmed
    · cases trimmed
    · exact Option.some.inj trimmed
  rw [String.toList_ofList]
  intro newline
  obtain ⟨front, back, split⟩ := List.append_of_mem newline
  obtain ⟨blanks, -, whole⟩ := Text.trimEnd_append_blanks text.toList
  -- After a line break in the text its line has no further byte, so it ends what was trimmed.
  have bytes : line = front.flatMap String.utf8EncodeChar ++
      10 :: (back ++ blanks).flatMap String.utf8EncodeChar := by
    rw [eq_flatMap_of_decodeText decoded, whole, split]
    simp [String.utf8EncodeChar]
  have nothing : back = [] := by
    cases back with
    | nil => rfl
    | cons c cs =>
      have more : (c :: cs ++ blanks).flatMap String.utf8EncodeChar ≠ [] := by simp
      refine absurd ?_ (not_mem_dropLast_of_mem_inputLines member)
      rw [bytes, List.dropLast_append_of_ne_nil (List.cons_ne_nil _ _),
        List.dropLast_cons_of_ne_nil more]
      simp
  subst nothing
  have last : (Text.trimEnd text.toList).getLast? = some '\n' := by simp [split]
  have blank := Text.isBlank_of_getLast?_trimEnd last
  rw [Text.isBlank_newline] at blank
  cases blank

/-- The sources that are run, up to the line that ends the prompt. -/
def sources : List (List UInt8) → List String
  | [] => []
  | input :: inputs =>
    match source? input with
    | none => []
    | some source => source :: sources inputs

theorem not_mem_of_mem_sources {bytes : List UInt8} {source : String} {lines : List (List UInt8)}
    (of : lines ⊆ inputLines bytes) (member : source ∈ sources lines) : '\n' ∉ source.toList := by
  induction lines with
  | nil => cases member
  | cons line lines ih =>
    obtain ⟨first, rest⟩ := List.cons_subset.mp of
    unfold sources at member
    cases said : source? line with
    | none => simp [said] at member
    | some source' =>
      rw [said] at member
      rcases List.mem_cons.mp member with rfl | later
      · exact not_mem_of_source? first said
      · exact ih rest later

/-- The workspace after some sources. -/
def after (w : Workspace) (o : Options) (sources : List String) : Workspace :=
  sources.foldl (fun w source => (w.run o source).2.2) w

theorem enter_next (w : Workspace) (o : Options) (source : String) :
    (enter w o source).2 = (w.run o source).2.2 := by
  unfold enter
  rcases w.run o source with ⟨_ | _, _, _⟩ <;> rfl

/-- What entering a source writes is part of what the prompt writes. -/
theorem exists_run_eq {o : Options} {inputs : List (List UInt8)} {earlier later : List String}
    {source : String} (w : Workspace) (entered : sources inputs = earlier ++ source :: later) :
    ∃ before rest, run w o inputs = before ++ (enter (after w o earlier) o source).1 ++ rest := by
  induction inputs generalizing w earlier with
  | nil => simp [sources] at entered
  | cons input inputs ih =>
    unfold sources at entered
    cases said : source? input with
    | none => simp [said] at entered
    | some first =>
      simp only [said] at entered
      have opened : run w o (input :: inputs) =
          mark ++ (enter w o first).1 ++ run (enter w o first).2 o inputs := by
        simp only [run, said]
      cases earlier with
      | nil =>
        obtain ⟨rfl, -⟩ := List.cons.inj entered
        exact ⟨mark, run (enter w o first).2 o inputs, opened⟩
      | cons _ earlier =>
        obtain ⟨rfl, further⟩ := List.cons.inj entered
        obtain ⟨before, rest, split⟩ := ih (enter w o first).2 further
        refine ⟨mark ++ (enter w o first).1 ++ before, rest, ?_⟩
        rw [opened, split, enter_next]
        simp only [Output.append_assoc]
        rfl

end Prompt

end Lispette
