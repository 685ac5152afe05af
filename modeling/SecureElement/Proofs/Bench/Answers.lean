import SecureElement.Bench.Device
import SecureElement.Proofs.Link.Legible
import SecureElement.Proofs.Link.Lines

/-!
Answers of a scripted device.

The lines of an answer make the response that it was given for, whatever stands in its body but the end
mark: a progress line shows no mark, since the first word of a command has no blank
(`completes_responseTexts`). Answers for one word are used in the order in which they were given,
whatever happens to those for other words (`takeAnswer_of_queued`).
-/

namespace SecureElement.Bench

open Text Reading

/-! ### The lines of a body -/

/-- A body as it comes back: with a line feed at its end, unless it is empty. -/
def closed (body : List Char) : List Char :=
  if body = [] ∨ body.getLast? = some '\n' then body else body ++ ['\n']

theorem closed_append_feed (line rest : List Char) :
    closed (line ++ '\n' :: rest) = line ++ '\n' :: closed rest := by
  cases rest with
  | nil => simp [closed]
  | cons c rest =>
      simp only [closed, List.getLast?_append, List.getLast?_cons_cons]
      cases last : (c :: rest).getLast? with
      | none => simp at last
      | some d => by_cases feed : d = '\n' <;> simp [feed]

/-- The lines of a body make up the body, with a line feed at its end. -/
theorem flatten_bodyLines {line rest : List Char} (unended : '\n' ∉ line) :
    (bodyLines line rest).flatten = closed (line ++ rest) := by
  fun_induction bodyLines line rest with
  | case1 => rfl
  | case2 line some =>
      have open_ : line.getLast? ≠ Option.some '\n' := fun last =>
        unended (List.mem_of_getLast? last)
      simp [closed, open_, show line ≠ [] from some]
  | case3 line rest ih =>
      rw [List.flatten_cons, ih (by simp), closed_append_feed]
      simp
  | case4 line c rest unfed ih =>
      have longer : '\n' ∉ line ++ [c] := by
        simp only [List.mem_append, List.mem_singleton, not_or]
        exact ⟨unended, fun same => unfed same.symm⟩
      rw [ih longer, List.append_assoc, List.singleton_append]

/-- A line of a body is a part of it with a line feed. -/
theorem exists_of_mem_bodyLines {line rest part : List Char} (member : part ∈ bodyLines line rest) :
    ∃ text, part = text ++ ['\n'] ∧ text <:+: line ++ rest := by
  fun_induction bodyLines line rest with
  | case1 => cases member
  | case2 line some =>
      obtain rfl := List.mem_singleton.1 member
      exact ⟨line, rfl, by simp⟩
  | case3 line rest ih =>
      rcases List.mem_cons.1 member with rfl | later
      · exact ⟨line, rfl, (List.prefix_append _ _).isInfix⟩
      · obtain ⟨text, rfl, inside⟩ := ih later
        exact ⟨text, rfl, inside.trans ⟨line ++ ['\n'], [], by simp⟩⟩
  | case4 line c rest unfed ih =>
      obtain ⟨text, rfl, inside⟩ := ih member
      rw [List.append_assoc, List.singleton_append] at inside
      exact ⟨text, rfl, inside⟩

/-! ### The lines of an answer -/

/-- The mark that tells a status. -/
def statusMark (success : Bool) : String :=
  if success then successMark else failureMark

/-- The texts of the lines of a whole response. -/
def responseTexts (word status body : String) : List String :=
  ["I (1042) cli: " ++ word ++ "\n", status ++ "\n"] ++
    (bodyLines [] body.toList).map String.ofList ++ [endMark ++ "\n"]

theorem responseLines_eq (word status body : String) :
    responseLines word status body = (responseTexts word status body).map Utf8.encode := by
  simp [responseLines, responseTexts]

/-- Every line of an answer ends in a line feed. -/
theorem exists_of_mem_responseTexts {word status body text : String}
    (member : text ∈ responseTexts word status body) : ∃ front, text = front ++ "\n" := by
  simp only [responseTexts, List.mem_append, List.mem_cons, List.mem_map, List.not_mem_nil,
    or_false] at member
  rcases member with ((rfl | rfl) | ⟨part, among, rfl⟩) | rfl
  · exact ⟨_, rfl⟩
  · exact ⟨_, rfl⟩
  · obtain ⟨line, rfl, -⟩ := exists_of_mem_bodyLines among
    exact ⟨String.ofList line, String.ofList_append⟩
  · exact ⟨_, rfl⟩

/-- A text does not go over from a part without blanks into it at a blank. -/
theorem not_infix_of_unbroken {head before after : List Char} (tail : List Char) (unbroken : ' ' ∉ after)
    (absent : ¬ head ++ [' '] <:+: before) : ¬ head ++ ' ' :: tail <:+: before ++ after := by
  rintro ⟨earlier, later, cut⟩
  have same : (earlier ++ (head ++ [' '])) ++ (tail ++ later) = before ++ after := by
    simpa using cut
  rcases List.append_eq_append_iff.1 same with ⟨more, rfl, -⟩ | ⟨more, whole, rfl⟩
  · exact absent ⟨earlier, more, by simp⟩
  · rcases List.eq_nil_or_concat' more with rfl | ⟨front, last, rfl⟩
    · exact absent ⟨earlier, [], by simpa using whole⟩
    · have ends := congrArg List.getLast? whole
      simp only [← List.append_assoc, List.getLast?_concat, Option.some.injEq] at ends
      subst ends
      exact unbroken (by simp)

/-- The line that tells of a command in progress shows no mark. -/
theorem plain_progress {word : String} (unbroken : ' ' ∉ word.toList) :
    Plain ("I (1042) cli: " ++ word ++ "\n") := by
  have absent : ∀ head tail : List Char, occursIn (head ++ [' ']) "I (1042) cli: ".toList = false →
      occursIn (head ++ ' ' :: tail) ("I (1042) cli: " ++ word ++ "\n").toList = false := by
    intro head tail none
    rw [← Bool.not_eq_true, occursIn_iff] at none ⊢
    have rest : ' ' ∉ word.toList ++ ['\n'] := by simpa using unbroken
    simpa using not_infix_of_unbroken tail rest none
  exact ⟨absent "Status:".toList "Success".toList (by decide),
    absent "Status:".toList "Failure".toList (by decide),
    absent "COMMAND".toList "END".toList (by decide)⟩

theorem lineTells_statusMark (success : Bool) : LineTells (statusMark success ++ "\n") success := by
  cases success <;> exact ⟨by decide, by decide⟩

theorem contains_bodyLine {body : String} (endless : contains body endMark = false) :
    ∀ line ∈ (bodyLines [] body.toList).map String.ofList, contains line endMark = false := by
  intro line member
  obtain ⟨part, among, rfl⟩ := List.mem_map.1 member
  obtain ⟨text, rfl, inside⟩ := exists_of_mem_bodyLines among
  rw [contains, ← Bool.not_eq_true, occursIn_iff] at endless ⊢
  rw [String.toList_ofList, List.infix_concat_iff]
  rintro (last | within)
  · have ends := last.getLast (by decide)
    simp [endMark] at ends
  · exact endless (within.trans inside)

theorem join_map_ofList (parts : List (List Char)) :
    String.join (parts.map String.ofList) = String.ofList parts.flatten := by
  induction parts with
  | nil => rfl
  | cons part parts ih =>
      rw [List.map_cons, String.join_cons, ih, List.flatten_cons, String.ofList_append]

/-- The lines of an answer make the response that it was given for. -/
theorem completes_responseTexts {word body : String} (success : Bool) (unbroken : ' ' ∉ word.toList)
    (endless : contains body endMark = false) :
    Completes (responseTexts word (statusMark success) body)
      ⟨success, String.ofList (closed body.toList)⟩ := by
  have plain : ∀ line ∈ ["I (1042) cli: " ++ word ++ "\n"], Plain line := by
    simpa using plain_progress unbroken
  have whole : String.join ((bodyLines [] body.toList).map String.ofList) =
      String.ofList (closed body.toList) := by
    rw [join_map_ofList, flatten_bodyLines (by simp), List.nil_append]
  rw [← whole]
  exact .intro plain (lineTells_statusMark success) (contains_bodyLine endless) (by decide)

/-! ### The order of answers -/

/-- The answers for a word, in the order in which they are used. -/
def queued (answers : List (String × List Octets)) (word : String) : List (List Octets) :=
  (answers.filter fun answer => answer.1 = word).map Prod.snd

theorem queued_append (first second : List (String × List Octets)) (word : String) :
    queued (first ++ second) word = queued first word ++ queued second word := by
  simp [queued]

/-- The first answer for a word is taken, and those for other words stay. -/
theorem takeAnswer_of_queued {word : String} {answers : List (String × List Octets)}
    {lines : List Octets} {later : List (List Octets)} (next : queued answers word = lines :: later) :
    ∃ rest, Device.takeAnswer word answers = some (lines, rest) ∧ queued rest word = later ∧
      ∀ other ≠ word, queued rest other = queued answers other := by
  induction answers with
  | nil => cases next
  | cons answer answers ih =>
      obtain ⟨w, here⟩ := answer
      by_cases same : w = word
      · subst same
        obtain ⟨rfl, rfl⟩ : here = lines ∧ queued answers w = later := by
          simpa [queued] using next
        refine ⟨answers, by simp [Device.takeAnswer], rfl, fun other differs => ?_⟩
        simp [queued, Ne.symm differs]
      · have skipped : queued answers word = lines :: later := by simpa [queued, same] using next
        obtain ⟨rest, taken, left, others⟩ := ih skipped
        refine ⟨(w, here) :: rest, by simp [Device.takeAnswer, same, taken], ?_, fun other differs => ?_⟩
        · simpa [queued, same] using left
        · have kept := others other differs
          by_cases its : w = other <;> simpa [queued, its] using kept

end SecureElement.Bench
