import KnowledgeCompanion.FilterExpression
import KnowledgeCompanion.StoreQueries

/-! The filter expressions of the Milvus store (`milvus_store.py`), written by joining
texts, and the records that the database selects with them. -/

namespace KnowledgeCompanion.MilvusFilters

open QuotedScan FilterExpression VectorIndexing StoreQueries

def escapeExpr (value : Text) : Text := doubled '\'' value

def quoted (value : Text) : Text := '\'' :: (escapeExpr value ++ ['\''])

def resourceFilter (resourceID : Text) (userID : Option Text) : Text :=
  if userID.getD [] ≠ [] then
    "resource_id == ".toList ++ quoted resourceID ++ " && user_id == ".toList ++
      quoted (userID.getD [])
  else "resource_id == ".toList ++ quoted resourceID

def resourceIDFilter : Option ResourceIDs → Text
  | none => []
  | some (.one id) => "resource_id == ".toList ++ quoted id
  | some (.many []) => "resource_id == ''".toList
  | some (.many [id]) => "resource_id == ".toList ++ quoted id
  | some (.many ids) =>
    "resource_id in [".toList ++ ", ".toList.intercalate (ids.map quoted) ++ "]".toList

def searchFilter (filters : FilterMapping) : Text :=
  let resource := resourceIDFilter filters.given
  let clauses := (if resource = [] then [] else [resource]) ++
    filters.userID.toList.map fun u => "user_id == ".toList ++ quoted u
  if clauses = [] then [] else " && ".toList.intercalate clauses

/-- `filter=expr or None` of a search, `filter=expr` of a deletion. -/
def expression : Query → Option Text
  | .search filters => if searchFilter filters = [] then none else some (searchFilter filters)
  | .delete resourceID userID => some (resourceFilter resourceID userID)

variable {F : Type}

def column (name : Text) : Option (VectorRecord F → Text) :=
  if name = "resource_id".toList then some VectorRecord.resourceID
  else if name = "user_id".toList then some VectorRecord.userID
  else none

/-- The records that the database selects; `none` when it refuses the expression. -/
def selected (escapes : Escapes Char) (q : Query) (store : Store F) : Option (Store F) :=
  match expression q with
  | none => some store
  | some text => (parse escapes column text).map fun holds => store.filter holds

def namedUser : Query → Option Text
  | .search filters => filters.userID
  | .delete _ userID => if userID.getD [] = [] then none else userID

def resourceParts : List Text → List (Text × Text)
  | [] => []
  | [id] => [("resource_id == ".toList, id)]
  | id :: ids => ("resource_id in [".toList, id) :: ids.map fun id => (", ".toList, id)

def resourceEnd : List Text → Text
  | _ :: _ :: _ => "]".toList
  | _ => []

def parts : Option (List Text) → Option Text → List (Text × Text)
  | none, none => []
  | none, some u => [("user_id == ".toList, u)]
  | some ids, none => resourceParts ids
  | some ids, some u => resourceParts ids ++ [(resourceEnd ids ++ " && user_id == ".toList, u)]

def ending : Option (List Text) → Option Text → Text
  | some ids, none => resourceEnd ids
  | _, _ => []

theorem template_quoted (pre value post : Text) :
    template '\'' [(pre, value)] post = pre ++ quoted value ++ post := by
  simp [template, quoted, escapeExpr]

theorem intercalate_quoted (id : Text) (ids : List Text) (pre post : Text) :
    pre ++ ", ".toList.intercalate ((id :: ids).map quoted) ++ post =
      template '\'' ((pre, id) :: ids.map fun id => (", ".toList, id)) post := by
  induction ids generalizing id pre with
  | nil =>
    rw [List.map_singleton, List.intercalate_singleton]
    exact (template_quoted pre id post).symm
  | cons next ids ih =>
    have rest := ih next ", ".toList
    rw [List.map_cons, List.map_cons, List.intercalate_cons_cons, List.map_cons, template, ← rest]
    simp [quoted, escapeExpr]

theorem resourceIDFilter_eq (ids : ResourceIDs) :
    resourceIDFilter (some ids) =
      template '\'' (resourceParts (if ids.values = [] then [[]] else ids.values))
        (resourceEnd (if ids.values = [] then [[]] else ids.values)) := by
  have single (id : Text) : "resource_id == ".toList ++ quoted id =
      template '\'' (resourceParts [id]) (resourceEnd [id]) :=
    ((template_quoted _ id []).trans (List.append_nil _)).symm
  rcases ids with id | (_ | ⟨id, _ | ⟨next, ids⟩⟩)
  · exact single id
  · exact single []
  · exact single id
  · exact intercalate_quoted id (next :: ids) _ _

theorem resourceIDFilter_ne_nil (ids : ResourceIDs) : resourceIDFilter (some ids) ≠ [] := by
  rcases ids with id | (_ | ⟨id, _ | ⟨next, ids⟩⟩)
  all_goals exact List.cons_ne_nil _ _

theorem quoted_user (parts : List (Text × Text)) (post user : Text) :
    template '\'' parts post ++ " && user_id == ".toList ++ quoted user =
      template '\'' (parts ++ [(post ++ " && user_id == ".toList, user)]) [] := by
  rw [template_append, List.append_assoc]
  rfl

theorem searchFilter_joined (filters : FilterMapping) :
    searchFilter filters =
      match filters.given, filters.userID with
      | none, none => []
      | none, some u => "user_id == ".toList ++ quoted u
      | some ids, none => resourceIDFilter (some ids)
      | some ids, some u =>
        resourceIDFilter (some ids) ++ " && user_id == ".toList ++ quoted u := by
  rw [searchFilter]
  cases filters.given with
  | none =>
    have nothing : resourceIDFilter none = [] := rfl
    rw [if_pos nothing, List.nil_append]
    cases filters.userID with
    | none => rfl
    | some u => exact (if_neg (List.cons_ne_nil _ _)).trans List.intercalate_singleton
  | some ids =>
    rw [if_neg (resourceIDFilter_ne_nil ids), List.singleton_append, if_neg (List.cons_ne_nil _ _)]
    cases filters.userID with
    | none => exact List.intercalate_singleton
    | some u =>
      refine List.intercalate_cons_cons.trans ?_
      rw [List.map_nil, List.intercalate_singleton, List.append_assoc]
      exact (List.append_assoc _ " && user_id == ".toList (quoted u)).symm

theorem searchFilter_eq (filters : FilterMapping) :
    searchFilter filters =
      template '\'' (parts (Query.search filters).sought filters.userID)
        (ending (Query.search filters).sought filters.userID) := by
  rw [Query.sought_search, searchFilter_joined]
  cases filters.given with
  | none =>
    cases filters.userID with
    | none => rfl
    | some u => exact ((template_quoted "user_id == ".toList u []).trans (List.append_nil _)).symm
  | some ids =>
    have whole := resourceIDFilter_eq ids
    cases filters.userID with
    | none => exact whole
    | some u =>
      exact (congrArg (· ++ " && user_id == ".toList ++ quoted u) whole).trans (quoted_user _ _ u)

theorem searchFilter_eq_nil_iff (filters : FilterMapping) :
    searchFilter filters = [] ↔ (Query.search filters).sought = none ∧ filters.userID = none := by
  rw [Query.sought_search, Option.map_eq_none_iff, searchFilter_joined]
  cases filters.given with
  | none =>
    cases filters.userID with
    | none => exact ⟨fun _ => ⟨rfl, rfl⟩, fun _ => rfl⟩
    | some u => exact ⟨fun h => absurd h (List.cons_ne_nil _ _), fun h => nomatch h.2⟩
  | some ids =>
    have written := resourceIDFilter_ne_nil ids
    refine ⟨fun h => absurd h ?_, fun h => nomatch h.1⟩
    cases filters.userID with
    | none => exact written
    | some u => exact fun empty => written (List.append_eq_nil_iff.mp
        (List.append_eq_nil_iff.mp empty).1).1

theorem expression_eq (q : Query) :
    expression q =
      if q.sought = none ∧ namedUser q = none then none
      else some (template '\'' (parts q.sought (namedUser q)) (ending q.sought (namedUser q))) := by
  cases q with
  | delete resourceID userID =>
    have whole := resourceIDFilter_eq (.one resourceID)
    rw [if_neg (fun h => nomatch h.1), expression]
    by_cases empty : userID.getD [] = []
    · rw [resourceFilter, if_neg (not_not.mpr empty), namedUser, if_pos empty]
      exact congrArg some whole
    · cases userID with
      | none => exact absurd rfl empty
      | some u =>
        rw [resourceFilter, if_pos empty, namedUser, if_neg empty]
        exact congrArg some ((congrArg (· ++ " && user_id == ".toList ++ quoted u) whole).trans
          (quoted_user _ _ u))
  | search filters =>
    have same := searchFilter_eq filters
    have empty := searchFilter_eq_nil_iff filters
    rw [expression]
    split_ifs with written absent absent
    · rfl
    · exact absurd (empty.mp written) absent
    · exact absurd (empty.mpr absent) written
    · exact congrArg some same

def userTokens (user : Text) : List Token :=
  [.word "user_id".toList, .sign "==".toList, .text user]

def elementTokens (ids : List Text) : List Token :=
  ids.flatMap fun id => [.sign ",".toList, .text id]

def listFront (id : Text) : List Token :=
  [.word "resource_id".toList, .word "in".toList, .sign "[".toList, .text id]

def resourceFront : List Text → List Token
  | [] => []
  | [id] => [.word "resource_id".toList, .sign "==".toList, .text id]
  | id :: ids => listFront id ++ elementTokens ids

def resourceBack : List Text → List Token
  | _ :: _ :: _ => [.sign "]".toList]
  | _ => []

theorem tokens_elements (ids : List Text) (rest : List (Text × Text)) (post : Text) :
    tokens [] (meant (ids.map (fun id => (", ".toList, id)) ++ rest) post) =
      elementTokens ids ++ tokens [] (meant rest post) := by
  induction ids with
  | nil => rfl
  | cons id ids ih =>
    have first (ps : List (Piece Char)) :
        tokens [] (", ".toList.map .code ++ .literal id :: ps) =
          .sign ",".toList :: .text id :: tokens [] ps := rfl
    rw [List.map_cons, List.cons_append, meant, first, ih]
    rfl

theorem tokens_resource (ids : List Text) (rest : List (Text × Text)) (post : Text) :
    tokens [] (meant (resourceParts ids ++ rest) post) =
      resourceFront ids ++ tokens [] (meant rest post) := by
  rcases ids with _ | ⟨id, _ | ⟨next, ids⟩⟩
  · rfl
  · rfl
  · have first (ps : List (Piece Char)) :
        tokens [] ("resource_id in [".toList.map .code ++ .literal id :: ps) =
          listFront id ++ tokens [] ps := rfl
    have shape : resourceParts (id :: next :: ids) ++ rest =
        ("resource_id in [".toList, id) ::
          ((next :: ids).map (fun id => (", ".toList, id)) ++ rest) := rfl
    rw [shape, meant, first, tokens_elements, ← List.append_assoc]
    rfl

theorem tokens_end (ids : List Text) :
    tokens [] (meant [] (resourceEnd ids)) = resourceBack ids := by
  rcases ids with _ | ⟨id, _ | ⟨next, ids⟩⟩ <;> rfl

theorem tokens_end_user (ids : List Text) (user : Text) :
    tokens [] (meant [(resourceEnd ids ++ " && user_id == ".toList, user)] []) =
      resourceBack ids ++ .sign "&&".toList :: userTokens user := by
  rcases ids with _ | ⟨id, _ | ⟨next, ids⟩⟩ <;> rfl

def clauses : Option (List Text) → Option Text → List (List Token)
  | none, none => []
  | none, some u => [userTokens u]
  | some ids, none => [resourceFront ids ++ resourceBack ids]
  | some ids, some u => [resourceFront ids ++ resourceBack ids, userTokens u]

theorem tokens_expression (sought : Option (List Text)) (user : Option Text) :
    tokens [] (meant (parts sought user) (ending sought user)) =
      [Token.sign "&&".toList].intercalate (clauses sought user) := by
  cases sought with
  | none =>
    cases user with
    | none => rfl
    | some u => rfl
  | some ids =>
    cases user with
    | none =>
      have read := tokens_resource ids [] (resourceEnd ids)
      rw [List.append_nil, tokens_end] at read
      exact read.trans List.intercalate_singleton.symm
    | some u =>
      have read := tokens_resource ids [(resourceEnd ids ++ " && user_id == ".toList, u)] []
      rw [tokens_end_user] at read
      refine read.trans ?_
      rw [clauses, List.intercalate_cons_cons, List.intercalate_singleton]
      simp

theorem resource_signs {ids : List Text} {sign : Text} (other : sign ∉ ["==".toList, "[".toList,
    ",".toList, "]".toList]) : .sign sign ∉ resourceFront ids ++ resourceBack ids := by
  have elements (others : List Text) : .sign sign ∉ elementTokens others := by
    simp only [elementTokens, List.mem_flatMap, List.mem_cons, List.not_mem_nil, or_false]
    rintro ⟨id, -, comma | text⟩
    · exact other (by simp [Token.sign.inj comma])
    · exact nomatch text
  simp only [List.mem_cons, List.not_mem_nil, or_false, not_or] at other
  rcases ids with _ | ⟨id, _ | ⟨next, ids⟩⟩
  · exact List.not_mem_nil
  · simpa [resourceFront, resourceBack] using other.1
  · simp only [resourceFront, resourceBack, listFront, List.mem_append, elements]
    simpa using ⟨other.2.1, other.2.2.2⟩

theorem clean_parts (sought : Option (List Text)) (user : Option Text) :
    (∀ p ∈ parts sought user, Clean literals p.1) ∧ Clean literals (ending sought user) := by
  have front (ids : List Text) : ∀ p ∈ resourceParts ids, Clean literals p.1 := by
    rcases ids with _ | ⟨id, _ | ⟨next, ids⟩⟩
    · exact fun p mem => nomatch mem
    · intro p mem
      rw [List.mem_singleton.mp mem]
      exact (by decide : Clean literals "resource_id == ".toList)
    · intro p mem
      rcases List.mem_cons.mp mem with rfl | mem
      · exact (by decide : Clean literals "resource_id in [".toList)
      · obtain ⟨id, -, rfl⟩ := List.mem_map.mp mem
        exact (by decide : Clean literals ", ".toList)
  have back (ids : List Text) : Clean literals (resourceEnd ids) := by
    rcases ids with _ | ⟨id, _ | ⟨next, ids⟩⟩
    · exact fun a mem => nomatch mem
    · exact fun a mem => nomatch mem
    · exact (by decide : Clean literals "]".toList)
  have named (ids : List Text) : Clean literals (resourceEnd ids ++ " && user_id == ".toList) :=
    (back ids).append (by decide)
  cases sought with
  | none =>
    refine ⟨?_, fun a mem => by cases user <;> exact nomatch mem⟩
    cases user with
    | none => exact fun p mem => nomatch mem
    | some u =>
      intro p mem
      rw [List.mem_singleton.mp mem]
      exact (by decide : Clean literals "user_id == ".toList)
  | some ids =>
    cases user with
    | none => exact ⟨front ids, back ids⟩
    | some u =>
      refine ⟨fun p mem => ?_, fun a mem => nomatch mem⟩
      rcases List.mem_append.mp mem with mem | mem
      · exact front ids p mem
      · rw [List.mem_singleton.mp mem]
        exact named ids

theorem values_parts (sought : Option (List Text)) (user : Option Text) :
    (parts sought user).map Prod.snd = sought.getD [] ++ user.toList := by
  have resource (ids : List Text) : (resourceParts ids).map Prod.snd = ids := by
    rcases ids with _ | ⟨id, _ | ⟨next, ids⟩⟩
    · rfl
    · rfl
    · simp [resourceParts, Function.comp_def]
  cases sought with
  | none => cases user <;> rfl
  | some ids =>
    cases user with
    | none => simp [parts, resource]
    | some u => simp [parts, resource]

/-- The record's columns are what the values written in the expression denote. -/
def Denotes (escapes : Escapes Char) (sought : Option (List Text)) (user : Option Text)
    (r : VectorRecord F) : Prop :=
  (∀ ids ∈ sought, ∃ id ∈ ids, textValue escapes id = some r.resourceID) ∧
    ∀ u ∈ user, textValue escapes u = some r.userID

theorem resource_reads (escapes : Escapes Char) {ids : List Text} (given : ids ≠ []) :
    Reads (clause escapes (column (F := F)) (resourceFront ids ++ resourceBack ids))
      (∀ id ∈ ids, (textValue escapes id).isSome = true)
      fun r => ∃ id ∈ ids, textValue escapes id = some r.resourceID := by
  have known : column (F := F) "resource_id".toList = some VectorRecord.resourceID := rfl
  rcases ids with _ | ⟨id, _ | ⟨next, ids⟩⟩
  · exact absurd rfl given
  · exact (comparison_reads known id).congr (by simp) (by simp)
  · exact membership_reads known id (next :: ids)

theorem user_reads (escapes : Escapes Char) (user : Text) :
    Reads (clause escapes (column (F := F)) (userTokens user))
      ((textValue escapes user).isSome = true)
      fun r => textValue escapes user = some r.userID :=
  comparison_reads rfl user

theorem clauses_read (escapes : Escapes Char) {sought : Option (List Text)} {user : Option Text}
    (given : ∀ ids ∈ sought, ids ≠ []) (written : ¬(sought = none ∧ user = none)) :
    Reads (disjunction escapes (column (F := F))
        ([Token.sign "&&".toList].intercalate (clauses sought user)))
      (∀ v ∈ sought.getD [] ++ user.toList, (textValue escapes v).isSome = true)
      (Denotes escapes sought user) := by
  have userSigns (u : Text) : .sign "||".toList ∉ userTokens u ∧
    .sign "&&".toList ∉ userTokens u := by
    simp [userTokens]
  cases sought with
  | none =>
    cases user with
    | none => exact absurd ⟨rfl, rfl⟩ written
    | some u =>
      rw [clauses, List.intercalate_singleton]
      exact ((user_reads escapes u).single (userSigns u).1 (userSigns u).2).congr (by simp)
        (by simp [Denotes])
  | some ids =>
    have reads := resource_reads (F := F) escapes (given ids rfl)
    have noOr : .sign "||".toList ∉ resourceFront ids ++ resourceBack ids :=
      resource_signs (by decide)
    have noAnd : .sign "&&".toList ∉ resourceFront ids ++ resourceBack ids :=
      resource_signs (by decide)
    cases user with
    | none =>
      rw [clauses, List.intercalate_singleton]
      exact (reads.single noOr noAnd).congr (by simp) (by simp [Denotes])
    | some u =>
      rw [clauses, List.intercalate_cons_cons, List.intercalate_singleton, List.append_assoc,
        List.singleton_append]
      refine (reads.both (user_reads escapes u) ⟨noOr, (userSigns u).1⟩
        ⟨noAnd, (userSigns u).2⟩).congr
        ?_ (by simp [Denotes])
      simp only [Option.getD_some, Option.toList_some, List.forall_mem_append,
        List.forall_mem_singleton]

/-- The expression of a query is accepted just when each of its values closes its literal
and denotes a text, and then it selects by what they denote. -/
theorem template_reads (escapes : Escapes Char) {sought : Option (List Text)}
    {user : Option Text}
    (given : ∀ ids ∈ sought, ids ≠ []) (written : ¬(sought = none ∧ user = none)) :
    Reads (parse escapes (column (F := F))
        (template '\'' (parts sought user) (ending sought user)))
      (∀ v ∈ sought.getD [] ++ user.toList,
        Closes literals '\'' v ∧ (textValue escapes v).isSome = true)
      (Denotes escapes sought user) := by
  have quote : literals.isQuote '\'' = true := rfl
  obtain ⟨between, last⟩ := clean_parts sought user
  have reads := clauses_read (F := F) escapes given written
  have values := values_parts sought user
  have closed (closes : ∀ p ∈ parts sought user, Closes literals '\'' p.2) :
      parse escapes (column (F := F)) (template '\'' (parts sought user) (ending sought user)) =
        disjunction escapes column
          ([Token.sign "&&".toList].intercalate (clauses sought user)) := by
    obtain ⟨accepted, shown⟩ := template_closed quote between last closes
    rw [parse, accepted, shown, tokens_expression]
  constructor
  · intro holds parsed
    have accepted : after literals .code (template '\'' (parts sought user) (ending sought user)) =
        .code := by
      by_contra unclosed
      rw [parse_unclosed unclosed] at parsed
      exact absurd parsed.symm (Option.some_ne_none _)
    rcases template_read quote between last accepted with closes | adjacent
    · rw [closed closes] at parsed
      obtain ⟨present, means⟩ := reads.sound holds parsed
      refine ⟨fun v mem => ⟨?_, present v mem⟩, means⟩
      rw [← values] at mem
      obtain ⟨p, here, rfl⟩ := List.mem_map.mp mem
      exact closes p here
    · rw [parse_adjacent adjacent] at parsed
      exact absurd parsed.symm (Option.some_ne_none _)
  · intro fine
    have closes : ∀ p ∈ parts sought user, Closes literals '\'' p.2 := by
      intro p mem
      refine (fine p.2 ?_).1
      rw [← values]
      exact List.mem_map_of_mem mem
    rw [closed closes]
    exact reads.complete fun v mem => (fine v mem).2

end KnowledgeCompanion.MilvusFilters
