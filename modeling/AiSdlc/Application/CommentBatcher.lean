import AiSdlc.Application.UnifiedDiff
import AiSdlc.Domain.PrReviewComment

/-! The batches of review comments: those of one hunk together, and the others of a file in chunks.
They are a partition of the comments unless the path of a file is also the key of a hunk.
-/

namespace AiSdlc.Application

open AiSdlc.Domain
open AiSdlc.Js

structure CommentBatch where
  path : String
  groupKey : String
  commentIds : List Int
  priority : Nat
  deriving DecidableEq, Repr

def maxBatchSize : Nat := 5

structure GroupCommentsIntoBatchesOptions where
  diff : Option String := none
  parsedDiff : Option ParsedUnifiedDiff := none
  deriving DecidableEq, Repr

namespace CommentBatcher

def normalizePath (path : String) : String :=
  let chars := (dropStart "./" path).toList
  .ofList (if chars.getLast? = some '/' then chars.dropLast else chars)

def getParsedDiff (options : GroupCommentsIntoBatchesOptions) : Option ParsedUnifiedDiff :=
  options.parsedDiff.or (options.diff.map parseUnifiedDiff)

def buildLocalityKey (path : String) (hunkIdentity : Option String) (commentId : Int)
    : String :=
  match truthy hunkIdentity with
  | some identity => s!"hunk:{identity}:{commentId}"
  | none => s!"file:{normalizePath path}:{commentId}"

/-- The identity of the hunk that a comment is in. -/
def hunkIdentity (hunks : FileHunks) (comment : PrReviewComment) : Option String :=
  truthy ((findHunkForLine hunks (normalizePath comment.path) comment.line).map (·.identity))

/-- The key under which comments are collected. -/
def localityKey (hunks : FileHunks) (comment : PrReviewComment) : String :=
  match hunkIdentity hunks comment with
  | some identity => s!"{normalizePath comment.path}::{identity}"
  | none => normalizePath comment.path

/-- A batch of collected comments, without its priority. -/
def batchOf (hunks : FileHunks) (first : PrReviewComment) (comments : List PrReviewComment)
    : CommentBatch :=
  let commentIds := comments.map (·.commentId)
  let path := normalizePath first.path
  {
    path
    groupKey := buildLocalityKey path (hunkIdentity hunks first) (commentIds.headD 0)
    commentIds
    priority := 0
  }

/-- The batches of the comments with one key: all of them, or chunks where the first one is in no
hunk.
-/
def localBatches (hunks : FileHunks) (localComments : List PrReviewComment)
    : List CommentBatch :=
  match localComments with
  | [] => []
  | first :: _ =>
      if (hunkIdentity hunks first).isSome then [batchOf hunks first localComments]
      else (chunks maxBatchSize localComments).map (batchOf hunks first)

/-- `batchPriority++` for each batch. -/
def numbered (batches : List CommentBatch) : List CommentBatch :=
  batches.mapIdx fun index batch => { batch with priority := index + 1 }

/-- The batches for the hunks of a diff. -/
def batchesFor (hunks : FileHunks) (comments : List PrReviewComment) : List CommentBatch :=
  let byLocality := Groups.collect (localityKey hunks) comments
  numbered (byLocality.flatMap fun (_, localComments) => localBatches hunks localComments)

/-- The hunks that the options give. -/
def hunksOf (options : GroupCommentsIntoBatchesOptions) : FileHunks :=
  ((getParsedDiff options).map (·.hunks)).getD []

def groupCommentsIntoBatches (comments : List PrReviewComment)
    (options : GroupCommentsIntoBatchesOptions)
    : List CommentBatch :=
  if comments = [] then [] else batchesFor (hunksOf options) comments

-----------------------------------------------------------------------------------------
-- Partitions
-----------------------------------------------------------------------------------------

/-- A batch of comments outside of every hunk. -/
def isFileBatch (batch : CommentBatch) : Bool :=
  startsWith batch.groupKey "file:"

/-- Every comment is in one batch, whose comments keep their order; a file batch has comments of
one path, and no more than a chunk; priorities count the batches, and group keys tell them apart.
-/
structure Partitions (comments : List PrReviewComment) (batches : List CommentBatch) : Prop where
  whole : (batches.flatMap (·.commentIds)).Perm (comments.map (·.commentId))
  ordered : ∀ batch ∈ batches, batch.commentIds.Sublist (comments.map (·.commentId))
  onePath
    : ∀ batch ∈ batches, isFileBatch batch = true → ∀ comment ∈ comments,
        comment.commentId ∈ batch.commentIds → normalizePath comment.path = batch.path
  priorities : batches.map (·.priority) = (List.range batches.length).map (· + 1)
  keys : (batches.map (·.groupKey)).Nodup
  bounded : ∀ batch ∈ batches, isFileBatch batch = true → batch.commentIds.length ≤ maxBatchSize

/-- The text that stands for the hunk of a comment: its path with the identity of the hunk. -/
def hunkText (hunks : FileHunks) (comment : PrReviewComment) : Option String :=
  (hunkIdentity hunks comment).map fun identity => s!"{normalizePath comment.path}::{identity}"

/-- No comment outside of every hunk has for its path the text that stands for the hunk of a later
comment, unless a comment in a hunk comes before it that has this text too.
-/
def Apart (hunks : FileHunks) (comments : List PrReviewComment) : Prop :=
  ∀ before file later, comments = before ++ file :: later → hunkIdentity hunks file = none →
    ∀ comment ∈ later, hunkText hunks comment = some (normalizePath file.path) →
      ∃ other ∈ before, hunkText hunks other = some (normalizePath file.path)

section Batches

variable {hunks : FileHunks} {comments localComments members : List PrReviewComment}
  {first comment : PrReviewComment} {batches : List CommentBatch} {batch : CommentBatch}

theorem map_numbered {β : Type} {field : CommentBatch → β}
    (same : ∀ batch priority, field { batch with priority } = field batch)
    : (numbered batches).map field = batches.map field := by
  apply List.ext_getElem
  · simp [numbered]
  · intro index within _
    simp [numbered, same]

theorem flatMap_numbered
    : (numbered batches).flatMap (·.commentIds) = batches.flatMap (·.commentIds) := by
  rw [List.flatMap_def, List.flatMap_def, map_numbered fun _ _ => rfl]

theorem priorities_numbered
    : (numbered batches).map (·.priority) = (List.range (numbered batches).length).map (· + 1) := by
  apply List.ext_getElem
  · simp [numbered]
  · intro index within _
    simp [numbered]

theorem mem_numbered (member : batch ∈ numbered batches)
    : ∃ priority, ∃ unnumbered ∈ batches, batch = { unnumbered with priority } := by
  obtain ⟨index, within, rfl⟩ := List.mem_mapIdx.mp member
  exact ⟨_, _, List.getElem_mem _, rfl⟩

theorem numbered_of_mem (member : batch ∈ batches)
    : ∃ priority, { batch with priority } ∈ numbered batches := by
  obtain ⟨index, within, rfl⟩ := List.mem_iff_getElem.mp member
  exact ⟨index + 1, List.mem_mapIdx.mpr ⟨index, within, rfl⟩⟩

theorem flatMap_localBatches
    : (localBatches hunks localComments).flatMap (·.commentIds)
      = localComments.map (·.commentId) := by
  cases localComments with
  | nil => rfl
  | cons first rest =>
      rw [localBatches]
      split
      · exact List.append_nil _
      · have held : (chunks maxBatchSize (first :: rest)).flatten = first :: rest :=
          flatten_chunks (by decide)
        rw [List.flatMap_map, List.flatMap_def]
        conv_rhs => rw [← held, List.map_flatten]
        rfl

/-- A batch of the comments with one key has some of them, in their order; outside of hunks no
more than a chunk.
-/
theorem mem_localBatches (member : batch ∈ localBatches hunks localComments)
    : ∃ first members, localComments.head? = some first ∧ batch = batchOf hunks first members
        ∧ members ≠ [] ∧ members.Sublist localComments
        ∧ (hunkIdentity hunks first = none → members.length ≤ maxBatchSize) := by
  cases localComments with
  | nil => exact nomatch member
  | cons first rest =>
      rw [localBatches] at member
      split at member
      next within =>
        obtain rfl := List.mem_singleton.mp member
        refine ⟨first, first :: rest, rfl, rfl, List.cons_ne_nil _ _, .refl _, fun outside => ?_⟩
        simp [outside] at within
      next outside =>
        obtain ⟨chunk, listed, rfl⟩ := List.mem_map.mp member
        obtain ⟨filled, bounded, sub⟩ := mem_chunks (by decide) listed
        exact ⟨first, chunk, rfl, rfl, filled, sub, fun _ => bounded⟩

theorem buildLocalityKey_eq (path : String) (identity : Option String) (commentId : Int)
    : ∃ text, buildLocalityKey path identity commentId = text ++ ":" ++ toString commentId := by
  unfold buildLocalityKey
  cases truthy identity with
  | none => exact ⟨_, rfl⟩
  | some identity => exact ⟨_, rfl⟩

theorem isFileBatch_batchOf
    : isFileBatch (batchOf hunks first members) = true ↔ hunkIdentity hunks first = none := by
  unfold isFileBatch batchOf buildLocalityKey
  cases found : hunkIdentity hunks first with
  | none =>
      have text (path : String) (commentId : Int)
          : s!"file:{path}:{commentId}" = "file:" ++ path ++ ":" ++ toString commentId :=
        rfl
      refine iff_of_true ?_ rfl
      change startsWith s!"file:{_}:{_}" "file:" = true
      rw [text, String.append_assoc, String.append_assoc, startsWith_append]
  | some identity =>
      have filled : identity ≠ "" := (truthy_eq_some.mp found).2
      have same : truthy (some identity) = some identity := truthy_eq_some.mpr ⟨rfl, filled⟩
      have text (commentId : Int)
          : s!"hunk:{identity}:{commentId}" = "hunk:" ++ identity ++ ":" ++ toString commentId :=
        rfl
      refine iff_of_false ?_ (fun none => nomatch none)
      dsimp only
      rw [same]
      change ¬startsWith s!"hunk:{_}:{_}" "file:" = true
      rw [text, String.append_assoc, String.append_assoc, startsWith, String.toList_append]
      exact Bool.false_ne_true

/-- Keys that end with the number of the first comment tell batches without common comments
apart, by induction over the batches.
-/
theorem nodup_groupKeys
    (shaped
      : ∀ batch ∈ batches, ∃ text first rest, batch.commentIds = first :: rest
          ∧ batch.groupKey = text ++ ":" ++ toString first)
    (distinct : (batches.flatMap (·.commentIds)).Nodup)
    : (batches.map (·.groupKey)).Nodup := by
  induction batches with
  | nil => exact List.nodup_nil
  | cons batch rest ih =>
      rw [List.flatMap_cons, List.nodup_append'] at distinct
      obtain ⟨-, later, apart⟩ := distinct
      rw [List.map_cons, List.nodup_cons]
      refine ⟨fun member => ?_, ih (fun other held => shaped other (.tail _ held)) later⟩
      obtain ⟨other, held, same⟩ := List.mem_map.mp member
      obtain ⟨text, first, others, ids, key⟩ := shaped batch List.mem_cons_self
      obtain ⟨otherText, otherFirst, otherIds, otherHeld, otherKey⟩ :=
        shaped other (List.mem_cons_of_mem _ held)
      rw [key, otherKey] at same
      have chars := congrArg String.toList same
      simp only [String.toList_append, List.append_assoc] at chars
      have plain (number : Int) : ':' ∉ (toString number).toList := fun colon =>
        (mem_intText colon).elim (by decide) (by decide)
      obtain ⟨-, numbers⟩ := append_separator_inj (plain otherFirst) (plain first) chars
      obtain rfl := intText_injective (String.toList_injective numbers)
      have here : otherFirst ∈ batch.commentIds := by simp [ids]
      have there : otherFirst ∈ rest.flatMap (·.commentIds) :=
        List.mem_flatMap.mpr ⟨other, held, by simp [otherHeld]⟩
      exact apart here there

theorem localityKey_eq
    : localityKey hunks comment = (hunkText hunks comment).getD (normalizePath comment.path) := by
  unfold localityKey hunkText
  cases hunkIdentity hunks comment <;> rfl

theorem hunkText_ne_path : hunkText hunks comment ≠ some (normalizePath comment.path) := by
  intro same
  obtain ⟨identity, -, text⟩ := Option.map_eq_some_iff.mp same
  have chars : (normalizePath comment.path).toList ++ ("::".toList ++ identity.toList)
      = (normalizePath comment.path).toList := by
    rw [← String.toList_append, ← String.toList_append, ← String.append_assoc]
    exact congrArg String.toList text
  exact List.cons_ne_nil _ _ (List.append_right_eq_self.mp chars)

theorem localityKey_of_outside (outside : hunkIdentity hunks comment = none)
    : localityKey hunks comment = normalizePath comment.path := by
  rw [localityKey_eq, hunkText, outside]
  rfl

theorem localityKey_of_text {text : String} (within : hunkText hunks comment = some text)
    : localityKey hunks comment = text := by
  rw [localityKey_eq, within]
  rfl

/-- The first comment with a path for its key is in no hunk, where none in a hunk comes before one
that is in no hunk and has this path.
-/
theorem outside_of_first {before later : List PrReviewComment} {file : PrReviewComment}
    (outside : hunkIdentity hunks file = none)
    (fresh : ∀ other ∈ before, hunkText hunks other ≠ some (normalizePath file.path))
    (found : (before ++ file :: later).find? (localityKey hunks · = normalizePath file.path)
      = some first)
    : hunkIdentity hunks first = none := by
  have own : (file :: later).find? (localityKey hunks · = normalizePath file.path) = some file :=
    List.find?_cons_of_pos (decide_eq_true (localityKey_of_outside outside))
  rw [List.find?_append, own] at found
  cases earlier : before.find? (localityKey hunks · = normalizePath file.path) with
  | none =>
      rw [earlier] at found
      obtain rfl := Option.some.inj found
      exact outside
  | some held =>
      rw [earlier] at found
      obtain rfl := Option.some.inj found
      have key : localityKey hunks held = normalizePath file.path := by
        simpa using List.find?_some earlier
      cases inside : hunkIdentity hunks held with
      | none => rfl
      | some identity =>
          refine absurd ?_ (fresh held (List.mem_of_find?_eq_some earlier))
          rw [← key, localityKey_eq, hunkText, inside]
          rfl

/-- Comments are kept apart where the first one with its key, if it is in no hunk, has the path of
all the others: whoever has the key of a path is outside of the hunks of that file, or has the text
of a hunk.
-/
theorem apart_iff
    : Apart hunks comments
      ↔ ∀ first ∈ comments,
          comments.find? (localityKey hunks · = localityKey hunks first) = some first →
          hunkIdentity hunks first = none →
          ∀ comment ∈ comments, localityKey hunks comment = localityKey hunks first →
            normalizePath comment.path = normalizePath first.path := by
  constructor
  · intro apart first _ found outside comment listed same
    rw [localityKey_of_outside outside] at same found
    by_contra other
    have within : hunkText hunks comment = some (normalizePath first.path) := by
      cases text : hunkText hunks comment with
      | none =>
          rw [localityKey_eq, text] at same
          exact absurd same other
      | some shown => rw [← same, localityKey_of_text text]
    obtain ⟨-, before, later, rfl, earlier⟩ := List.find?_eq_some_iff_append.mp found
    have fresh (held : PrReviewComment) (member : held ∈ before)
        : hunkText hunks held ≠ some (normalizePath first.path) := by
      intro text
      have apartKey := earlier held member
      simp [localityKey_of_text text] at apartKey
    rcases List.mem_append.mp listed with member | member
    · exact fresh comment member within
    rcases List.mem_cons.mp member with rfl | member
    · exact other rfl
    · obtain ⟨held, member, text⟩ := apart before first later rfl outside comment member within
      exact fresh held member text
  · rintro firsts before file later rfl outside comment member within
    by_contra none
    have key : localityKey hunks comment = normalizePath file.path := localityKey_of_text within
    have listed : comment ∈ before ++ file :: later :=
      List.mem_append_right _ (List.mem_cons_of_mem _ member)
    -- The first comment with the key is in no hunk, so that its path is the key.
    cases found : (before ++ file :: later).find?
        (localityKey hunks · = normalizePath file.path) with
    | none => exact List.find?_eq_none.mp found comment listed (decide_eq_true key)
    | some first =>
        have firstKey : localityKey hunks first = normalizePath file.path := by
          simpa using List.find?_some found
        have firstOutside : hunkIdentity hunks first = Option.none :=
          outside_of_first outside (fun other held text => none ⟨other, held, text⟩) found
        have path := firsts first (List.mem_of_find?_eq_some found) (by rw [firstKey]; exact found)
          firstOutside comment listed (key.trans firstKey.symm)
        have itsOwn : hunkText hunks comment = some (normalizePath comment.path) := by
          rw [within, path, ← localityKey_of_outside firstOutside, firstKey]
        exact hunkText_ne_path itsOwn

section Collected

variable {groups : Groups String PrReviewComment}

/-- The batches before they are numbered. -/
def collectedBatches (hunks : FileHunks) (groups : Groups String PrReviewComment)
    : List CommentBatch :=
  groups.flatMap fun (_, localComments) => localBatches hunks localComments

theorem mem_collectedBatches (collects : groups.Collects (localityKey hunks) comments)
    (member : batch ∈ collectedBatches hunks groups)
    : ∃ first members, batch = batchOf hunks first members ∧ members ≠ []
        ∧ members.Sublist comments
        ∧ (hunkIdentity hunks first = none → members.length ≤ maxBatchSize)
        ∧ comments.find? (localityKey hunks · = localityKey hunks first) = some first
        ∧ ∀ comment ∈ members, localityKey hunks comment = localityKey hunks first := by
  obtain ⟨⟨key, localComments⟩, held, within⟩ := List.mem_flatMap.mp member
  obtain ⟨first, members, head, rfl, filled, sub, bounded⟩ := mem_localBatches within
  obtain rfl : localComments = comments.filter (localityKey hunks · = key) :=
    collects.whole _ held
  have keyed (comment : PrReviewComment)
      (listed : comment ∈ comments.filter (localityKey hunks · = key))
      : localityKey hunks comment = key := by
    simpa using (List.mem_filter.mp listed).2
  have same : localityKey hunks first = key := keyed first (List.mem_of_head? head)
  refine ⟨first, members, rfl, filled, sub.trans List.filter_sublist, bounded, ?_, ?_⟩
  · rw [same, ← List.head?_filter]
    exact head
  · exact fun comment listed => same ▸ keyed comment (sub.subset listed)

theorem perm_collectedBatches (collects : groups.Collects (localityKey hunks) comments)
    : ((collectedBatches hunks groups).flatMap (·.commentIds)).Perm
        (comments.map (·.commentId)) := by
  have ids : (collectedBatches hunks groups).flatMap (·.commentIds)
      = (groups.flatMap Prod.snd).map (·.commentId) := by
    rw [collectedBatches, List.flatMap_assoc, List.map_flatMap]
    exact List.flatMap_congr fun group _ => flatMap_localBatches
  rw [ids]
  exact collects.perm.map _

/-- The batches of comments that are kept apart are a partition. -/
theorem partitions_of_apart (collects : groups.Collects (localityKey hunks) comments)
    (distinct : (comments.map (·.commentId)).Nodup) (apart : Apart hunks comments)
    : Partitions comments (numbered (collectedBatches hunks groups)) where
  whole := by
    rw [flatMap_numbered]
    exact perm_collectedBatches collects
  ordered := by
    intro batch member
    obtain ⟨priority, unnumbered, held, rfl⟩ := mem_numbered member
    obtain ⟨first, members, rfl, -, sub, -⟩ := mem_collectedBatches collects held
    exact sub.map _
  onePath := by
    intro batch member file comment listed within
    obtain ⟨priority, unnumbered, held, rfl⟩ := mem_numbered member
    obtain ⟨first, members, rfl, -, sub, -, found, keyed⟩ := mem_collectedBatches collects held
    have outside : hunkIdentity hunks first = none := isFileBatch_batchOf.mp file
    obtain ⟨other, among, same⟩ := List.mem_map.mp within
    obtain rfl : other = comment :=
      List.inj_on_of_nodup_map distinct (sub.subset among) listed same
    exact apart_iff.mp apart first (List.mem_of_find?_eq_some found) found outside other listed
      (keyed other among)
  priorities := priorities_numbered
  keys := by
    rw [map_numbered fun _ _ => rfl]
    refine nodup_groupKeys ?_ ((perm_collectedBatches collects).nodup_iff.mpr distinct)
    intro batch held
    obtain ⟨first, members, rfl, filled, -⟩ := mem_collectedBatches collects held
    obtain ⟨head, rest, rfl⟩ := List.exists_cons_of_ne_nil filled
    obtain ⟨text, key⟩ := buildLocalityKey_eq (normalizePath first.path)
      (hunkIdentity hunks first) head.commentId
    exact ⟨text, head.commentId, rest.map (·.commentId), rfl, key⟩
  bounded := by
    intro batch member file
    obtain ⟨priority, unnumbered, held, rfl⟩ := mem_numbered member
    obtain ⟨first, members, rfl, -, -, bounded, -⟩ := mem_collectedBatches collects held
    rw [show (batchOf hunks first members).commentIds = members.map (·.commentId) from rfl,
      List.length_map]
    exact bounded (isFileBatch_batchOf.mp file)

/-- The comments of a partition are kept apart: the batch of a comment has the path of the first
one with its key.
-/
theorem apart_of_partitions (collects : groups.Collects (localityKey hunks) comments)
    (partitions : Partitions comments (numbered (collectedBatches hunks groups)))
    : Apart hunks comments := by
  refine apart_iff.mpr fun first listed found outside comment among same => ?_
  obtain ⟨group, held, key⟩ := List.mem_map.mp (collects.mem_keys listed)
  have whole : group.2 = comments.filter (localityKey hunks · = localityKey hunks first) := by
    rw [collects.whole group held, key]
  have within : comment ∈ group.2 := by
    rw [whole]
    exact List.mem_filter.mpr ⟨among, by simpa using same⟩
  have head : group.2.head? = some first := by
    rw [whole, List.head?_filter]
    exact found
  obtain ⟨rest, begins⟩ := List.head?_eq_some_iff.mp head
  have chunked : (chunks maxBatchSize (first :: rest)).flatten = first :: rest :=
    flatten_chunks (by decide)
  rw [begins, ← chunked] at within
  obtain ⟨chunk, cut, member⟩ := List.mem_flatten.mp within
  have batched : batchOf hunks first chunk ∈ collectedBatches hunks groups := by
    refine List.mem_flatMap.mpr ⟨group, held, ?_⟩
    change batchOf hunks first chunk ∈ localBatches hunks group.2
    rw [begins, localBatches, if_neg (by simp [outside])]
    exact List.mem_map_of_mem cut
  obtain ⟨priority, numbered⟩ := numbered_of_mem batched
  exact partitions.onePath _ numbered (isFileBatch_batchOf.mpr outside) comment among
    (List.mem_map_of_mem member)

end Collected

end Batches

/-- The batches are a partition of the comments just when no comment in a hunk has the key of a
file that is met before it.
-/
theorem partitions_iff_apart (comments : List PrReviewComment)
    (options : GroupCommentsIntoBatchesOptions) (distinct : (comments.map (·.commentId)).Nodup)
    : Partitions comments (groupCommentsIntoBatches comments options)
      ↔ Apart (hunksOf options) comments := by
  have batches : groupCommentsIntoBatches comments options
      = numbered (collectedBatches (hunksOf options)
        (Groups.collect (localityKey (hunksOf options)) comments)) := by
    unfold groupCommentsIntoBatches
    split
    next empty =>
      rw [empty]
      rfl
    next => rfl
  have collects := Groups.collects_collect (localityKey (hunksOf options)) comments
  rw [batches]
  exact ⟨apart_of_partitions collects, partitions_of_apart collects distinct⟩

/-- A comment on a line of a file. -/
def commentOn (commentId : Int) (path : String) (line : Int) : PrReviewComment :=
  createPrReviewComment {
    runId := "run"
    prNumber := 4
    commentId
    path
    line
    reviewer := "reviewer"
    body := "Please rename this."
    now := Date.epoch
  }

/-- The changes of one hunk. -/
def hunkDiff : String :=
  "--- a/src/a.ts\n+++ b/src/a.ts\n@@ -1,2 +1,2 @@\n-let a = 1\n+let a = 2\n let b = 3"

/-- Two comments in a hunk, and one beside it. -/
def hunkComments : List PrReviewComment :=
  [commentOn 1 "src/a.ts" 2, commentOn 2 "src/a.ts" 9, commentOn 3 "src/a.ts" 1]

theorem partitions_iff_apart_hunk
    : Partitions hunkComments
        [
          {
            path := "src/a.ts"
            groupKey := "hunk:src/a.ts:1,2:1,2:1"
            commentIds := [1, 3]
            priority := 1
          },
          { path := "src/a.ts", groupKey := "file:src/a.ts:2", commentIds := [2], priority := 2 }
        ] := by
  have other : ∀ comment ∈ hunkComments, ∀ file ∈ hunkComments,
      hunkText (hunksOf { diff := some hunkDiff }) comment ≠ some (normalizePath file.path) := by
    decide
  have apart : Apart (hunksOf { diff := some hunkDiff }) hunkComments := by
    intro before file later split _ comment member same
    refine absurd same (other comment ?_ file ?_) <;> simp [split, member]
  have partitions := (partitions_iff_apart hunkComments { diff := some hunkDiff } (by decide)).mpr
    apart
  have batches : groupCommentsIntoBatches hunkComments { diff := some hunkDiff } = [
      {
        path := "src/a.ts"
        groupKey := "hunk:src/a.ts:1,2:1,2:1"
        commentIds := [1, 3]
        priority := 1
      },
      { path := "src/a.ts", groupKey := "file:src/a.ts:2", commentIds := [2], priority := 2 }
    ] := by
    decide
  exact batches ▸ partitions

/-- A file whose path is the key of a hunk shares its batch with the comments of the hunk. -/
theorem file_shares_batch_with_hunk
    : ¬∀ (comments : List PrReviewComment) (options : GroupCommentsIntoBatchesOptions),
        (comments.map (·.commentId)).Nodup →
        Partitions comments (groupCommentsIntoBatches comments options) := by
  intro claim
  let path := "src/a.ts::src/a.ts:1,2:1,2"
  have batches : (groupCommentsIntoBatches [commentOn 1 path 1, commentOn 2 "src/a.ts" 1]
      { diff := some hunkDiff }) = [{
        path
        groupKey := "file:src/a.ts::src/a.ts:1,2:1,2:1"
        commentIds := [1, 2]
        priority := 1
      }] := by
    decide
  have partitions := claim [commentOn 1 path 1, commentOn 2 "src/a.ts" 1]
    { diff := some hunkDiff } (by decide)
  rw [batches] at partitions
  have onePath := partitions.onePath _ List.mem_cons_self (by decide)
    (commentOn 2 "src/a.ts" 1) (by simp) (by decide)
  exact absurd onePath (by decide)

end CommentBatcher

end AiSdlc.Application
