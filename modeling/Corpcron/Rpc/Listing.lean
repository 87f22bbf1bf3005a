import Corpcron.Lib.LikePattern
import Corpcron.Lib.Paging
import Corpcron.Rpc.ExecuteTask

/-!
# Listing tasks and history

`ListTasks` and `ListHistory` answer a page of the rows that pass a filter and
are found by a keyword, newest first, with the number of all such rows.  The
keyword is put between two `%` and searched for with `LIKE` in several columns,
so what is found is up to the meaning of the keyword as a pattern.

A client that goes through the pages gets every row that the `WHERE` clause
accepts once, since the order leaves no choice (`listsExactly_of_pages`).  These
are the rows that contain the keyword if it has none of the symbols `%`, `_` and
backslash; `taskWhere_eq_wanted_iff` says that there is no other case.
-/

namespace Corpcron

open Lib RpcDispatcher

/-! ## Text in MySQL -/

/-- The special symbols of `LIKE`. -/
def mysqlWildcards : Wildcards Char where
  any := '%'
  one := '_'
  escape := '\\'
  any_ne_escape := by decide

/-- How MySQL compares texts. -/
structure Collation where
  /-- Characters that `LIKE` takes for each other. -/
  same : Char → Char → Bool
  /-- `a = b`. -/
  equal : String → String → Bool
  /-- `a <= b`, for `ORDER BY`. -/
  le : String → String → Bool
  same_refl : ∀ c, same c c = true
  equal_refl : ∀ text, equal text text = true

/-- `like_keyword`. -/
def likeKeyword (keyword : String) : String := "%" ++ keyword ++ "%"

theorem toList_likeKeyword (keyword : String) :
    (likeKeyword keyword).toList = mysqlWildcards.around keyword.toList := by
  rw [likeKeyword, String.toList_append, String.toList_append]
  rfl

namespace Collation

variable (coll : Collation)

/-- `text LIKE pattern`. -/
def like (text pattern : String) : Bool :=
  mysqlWildcards.like coll.same pattern.toList text.toList

/-- The keyword is a substring of the text. -/
def contains (text keyword : String) : Bool :=
  containsWord coll.same keyword.toList text.toList

/-- `(? = '' OR column LIKE ? OR ...)`; `NULL LIKE ?` is not true. -/
def finds (keyword : String) (columns : List (Option String)) : Bool :=
  coll.equal keyword "" ||
    columns.any fun column => column.any fun text => coll.like text (likeKeyword keyword)

/-- One of the columns contains the keyword. -/
def mentions (keyword : String) (columns : List (Option String)) : Bool :=
  columns.any fun column => column.any fun text => coll.contains text keyword

/-- No special symbol is in the keyword, and only the empty one is equal to the
empty text. -/
def Plain (keyword : String) : Prop :=
  (∀ c ∈ keyword.toList, ¬mysqlWildcards.Special c) ∧
    (coll.equal keyword "" = true → keyword = "")

variable {coll}

theorem like_likeKeyword {keyword : String}
    (hplain : ∀ c ∈ keyword.toList, ¬mysqlWildcards.Special c) (text : String) :
    coll.like text (likeKeyword keyword) = coll.contains text keyword := by
  rw [like, toList_likeKeyword]
  exact Wildcards.like_plain hplain text.toList

theorem contains_empty (text : String) : coll.contains text "" = true := by
  rw [contains, containsWord_iff]
  exact ⟨[], [], text.toList, rfl, .nil⟩

theorem finds_eq_mentions {keyword : String} (hplain : coll.Plain keyword)
    {columns : List (Option String)} {text : String} (htext : some text ∈ columns) :
    coll.finds keyword columns = coll.mentions keyword columns := by
  by_cases hempty : coll.equal keyword "" = true
  · have hmentions : coll.mentions keyword columns = true := by
      rw [hplain.2 hempty, mentions, List.any_eq_true]
      exact ⟨some text, htext, contains_empty text⟩
    rw [finds, hempty, Bool.true_or, hmentions]
  · rw [Bool.not_eq_true] at hempty
    rw [finds, hempty, Bool.false_or, mentions]
    simp only [like_likeKeyword hplain.1]

theorem contains_in_empty {keyword : String} (h : coll.contains "" keyword = true) :
    keyword = "" := by
  rw [contains, containsWord_iff] at h
  obtain ⟨before, found, after, happend, hsame⟩ := h
  have hfront : before ++ found = [] := (List.append_eq_nil_iff.mp happend.symm).1
  rw [(List.append_eq_nil_iff.mp hfront).2, List.forall₂_nil_right_iff] at hsame
  exact String.toList_eq_nil_iff.mp hsame

/-- Other keywords are not searched for as they are, if the collation tells some
character from `_` and `%` from the backslash. -/
theorem plain_of_finds_eq_mentions {x : Char} (hone : coll.same '_' x = false)
    (hescape : coll.same '%' '\\' = false) {keyword : String}
    (h : ∀ text, coll.finds keyword [some text] = coll.mentions keyword [some text]) :
    coll.Plain keyword := by
  by_cases hempty : coll.equal keyword "" = true
  · -- Every text is found, also the empty one.
    have hkeyword : keyword = "" := by
      have hmentions := h ""
      rw [finds, hempty, Bool.true_or] at hmentions
      have hcontains : coll.contains "" keyword = true := by
        simpa [mentions] using hmentions.symm
      exact contains_in_empty hcontains
    refine ⟨?_, fun _ => hkeyword⟩
    intro c hc
    rw [hkeyword] at hc
    cases hc
  · refine ⟨?_, fun heq => absurd heq hempty⟩
    rw [← mysqlWildcards.like_eq_contains_iff coll.same_refl hone hescape keyword.toList]
    intro text
    have htext := h (String.ofList text)
    rw [Bool.not_eq_true] at hempty
    rw [finds, hempty, Bool.false_or] at htext
    simpa [mentions, like, contains, toList_likeKeyword] using htext

end Collation

/-! ## Pages -/

/-- `limit` of `listTasks` and `listHistory`. -/
def queryLimit (limit : Nat) : Nat := if limit = 0 then 100 else limit

/-- A page of the rows that meet `cond`: it is cut out of them in some order that
`ORDER BY` allows. -/
structure IsPage {ρ α : Type} (before : ρ → ρ → Prop) (rows : List ρ) (cond : ρ → Bool)
    (fromResult : ρ → α) (offset limit : Nat) (page : Page α) : Prop where
  total : page.total = (rows.filter cond).length
  items : ∃ sorted, Sorting before (rows.filter cond) sorted ∧
    page.items = (pageOf sorted offset (queryLimit limit)).map fromResult

/-- Going through the pages gives exactly the rows that meet `cond`, each once,
and every page says how many there are. -/
def ListsExactly {ρ α : Type} (ask : Nat → Nat → Listed α) (rows : List ρ) (cond : ρ → Bool)
    (fromResult : ρ → α) : Prop :=
  (∃ sorted : List ρ, sorted.Perm (rows.filter cond) ∧
    ∀ fuel, rows.length < fuel → walk ask fuel 0 0 0 = some (sorted.map fromResult)) ∧
  ∀ turn offset, (ask turn offset).total = (rows.filter cond).length

theorem map_pageOf {ρ α : Type} (f : ρ → α) (rows : List ρ) (offset limit : Nat) :
    (pageOf rows offset limit).map f = pageOf (rows.map f) offset limit := by
  rw [pageOf, pageOf, List.map_take, List.map_drop]

/-- Pages fit together if the order leaves no choice. -/
theorem listsExactly_of_pages {ρ α : Type} {before : ρ → ρ → Prop} {rows : List ρ}
    {cond : ρ → Bool} {fromResult : ρ → α} {limit : Nat} (hlimit : 0 < limit)
    (hstrict : ∀ a ∈ rows, ∀ b ∈ rows, before a b → before b a → a = b)
    {page : Nat → Nat → Page α}
    (hpage : ∀ turn offset, IsPage before rows cond fromResult offset limit (page turn offset)) :
    ListsExactly (fun turn offset => ⟨(page turn offset).items, (page turn offset).total, offset,
      limit⟩) rows cond fromResult := by
  obtain ⟨sorted, hsorted, -⟩ := (hpage 0 0).items
  have hlength : sorted.length = (rows.filter cond).length := hsorted.perm.length_eq
  have hquery : queryLimit limit = limit := if_neg (Nat.pos_iff_ne_zero.mp hlimit)
  have hask : ∀ turn offset, (⟨(page turn offset).items, (page turn offset).total, offset, limit⟩ :
      Listed α) = ⟨pageOf (sorted.map fromResult) offset limit, (sorted.map fromResult).length,
        offset, limit⟩ := by
    intro turn offset
    obtain ⟨sorted', hsorted', hitems⟩ := (hpage turn offset).items
    -- Another request may have been sorted anew, but there is only one order.
    have hsame : sorted' = sorted := by
      refine hsorted'.unique ?_ hsorted
      intro a ha b hb
      exact hstrict a (List.mem_of_mem_filter ha) b (List.mem_of_mem_filter hb)
    rw [hitems, (hpage turn offset).total, hsame, hquery, map_pageOf, List.length_map, hlength]
  refine ⟨⟨sorted, hsorted.perm, ?_⟩, fun turn offset => (hpage turn offset).total⟩
  intro fuel hfuel
  refine walk_eq hlimit hask ?_
  rw [List.length_map, hlength]
  exact Nat.lt_of_le_of_lt (List.length_filter_le _ _) hfuel

theorem ListsExactly.congr {ρ α : Type} {ask : Nat → Nat → Listed α} {rows : List ρ}
    {cond cond' : ρ → Bool} {fromResult : ρ → α} (h : ListsExactly ask rows cond fromResult)
    (hcond : ∀ row ∈ rows, cond row = cond' row) : ListsExactly ask rows cond' fromResult := by
  have hfilter : rows.filter cond = rows.filter cond' := List.filter_congr hcond
  rwa [ListsExactly, hfilter] at h

theorem pageLimit_pos (limit : Int) : 0 < pageLimit limit := by
  unfold pageLimit
  split <;> omega

/-! ## `ListTasks` -/

/-- The columns that `listTasks` searches. -/
def TaskRow.columns (row : TaskRow) : List (Option String) :=
  [some row.id, some row.handler, some row.cronExpr, some row.params]

/-- `(? = -1 OR status = ?)`. -/
def statusAllowed (query : TaskQuery) (row : TaskRow) : Bool :=
  query.statusFilter == -1 || row.status == query.statusFilter

/-- The `WHERE` clause of `listTasks`. -/
def taskWhere (coll : Collation) (query : TaskQuery) (row : TaskRow) : Bool :=
  statusAllowed query row && coll.finds query.keyword row.columns

/-- The row passes the filter and contains the keyword. -/
def taskWanted (coll : Collation) (query : TaskQuery) (row : TaskRow) : Bool :=
  statusAllowed query row && coll.mentions query.keyword row.columns

/-- `ORDER BY created_at DESC, id DESC`. -/
def taskBefore (coll : Collation) (a b : TaskRow) : Prop :=
  b.createdAt < a.createdAt ∨ a.createdAt = b.createdAt ∧ coll.le b.id a.id = true

/-- What `listTasks` returns if no statement fails. -/
def ListTasksReturns (coll : Collation) (t : TaskTable) (query : TaskQuery)
    (page : Page TaskMeta) : Prop :=
  IsPage (taskBefore coll) t.rows (taskWhere coll query) taskFromResult query.offset query.limit
    page

/-- The query of a request. -/
def taskQueryOf (req : Rpc.ListTasksRequest) : TaskQuery :=
  ⟨if req.hasStatusFilter then req.statusFilter else if req.enabledOnly then taskScheduled else -1,
    req.keyword, pageLimit req.limit, pageOffset req.offset⟩

/-- The request for another page. -/
def Rpc.ListTasksRequest.at (req : Rpc.ListTasksRequest) (offset : Nat) : Rpc.ListTasksRequest :=
  { req with offset := offset }

/-- A client asks for the tasks of a table that does not change.  No id is equal
to another one under the collation, and numbers of rows fit into `int`. -/
structure ListingTasks {σ : Type} (world : Program.World DispatchOp.Reply σ) (coll : Collation)
    (t : TaskTable) (d : RpcDispatcher) (codec : Codec) (payload : Nat → List UInt8)
    (req : Rpc.ListTasksRequest) : Prop where
  parsed : ∀ offset < 2 ^ 31, codec.parse .listTasks (payload offset) = some (req.at offset)
  authorized : d.authorized req.authToken = true
  hasDb : d.cfg.hasDb = true
  pages : ∀ s query, ListTasksReturns coll t query (world (.listTasks query) s).1
  key : ∀ a ∈ t.rows, ∀ b ∈ t.rows, coll.le a.id b.id = true → coll.le b.id a.id = true → a = b
  fits : t.rows.length < 2 ^ 31

/-- The message that answers the request for a page, which finds the process in
the state `states turn`. -/
def listTasksAnswer {σ : Type} (world : Program.World DispatchOp.Reply σ) (states : Nat → σ)
    (req : Rpc.ListTasksRequest) (turn offset : Nat) : Listed TaskMeta :=
  let page : Page TaskMeta := (world (.listTasks (taskQueryOf (req.at offset))) (states turn)).1
  ⟨page.items, page.total, offset, pageLimit req.limit⟩

section ListTasks

variable {σ : Type} {world : Program.World DispatchOp.Reply σ} {coll : Collation} {t : TaskTable}
  {d : RpcDispatcher} {codec : Codec} {payload : Nat → List UInt8} {req : Rpc.ListTasksRequest}

theorem handleListTasks_answer (h : ListingTasks world coll t d codec payload req)
    (states : Nat → σ) (turn : Nat) {offset : Nat} (hoffset : offset ≤ t.rows.length) :
    ((handleListTasks d codec (payload offset)).run world (states turn)).1 =
      let answer := listTasksAnswer world states req turn offset
      codec.makeResponse (.listTasks answer.items answer.total answer.offset answer.limit) := by
  have hauth : d.authorized (Method.listTasks.authToken (req.at offset)) = true := h.authorized
  unfold handleListTasks withRequest
  rw [h.parsed offset (Nat.lt_of_le_of_lt hoffset h.fits)]
  simp only [hauth, h.hasDb]
  rfl

theorem taskBefore_strict (h : ListingTasks world coll t d codec payload req) :
    ∀ a ∈ t.rows, ∀ b ∈ t.rows, taskBefore coll a b → taskBefore coll b a → a = b := by
  intro a ha b hb hab hba
  rcases hab with hab | ⟨hsame, hab⟩
  · rcases hba with hba | ⟨hsame, -⟩
    · exact absurd (Int.lt_trans hab hba) (Int.lt_irrefl _)
    · rw [hsame] at hab
      exact absurd hab (Int.lt_irrefl _)
  · rcases hba with hba | ⟨-, hba⟩
    · rw [hsame] at hba
      exact absurd hba (Int.lt_irrefl _)
    · exact h.key a ha b hb hba hab

/-- The pages of `ListTasks` are the rows of its `WHERE` clause. -/
theorem listTasks_listsExactly (h : ListingTasks world coll t d codec payload req)
    (states : Nat → σ) :
    ListsExactly (listTasksAnswer world states req) t.rows
      (taskWhere coll (taskQueryOf req)) taskFromResult :=
  listsExactly_of_pages (pageLimit_pos req.limit) (taskBefore_strict h) fun turn offset =>
    h.pages (states turn) (taskQueryOf (req.at offset))

theorem taskWhere_eq_wanted {query : TaskQuery} (hplain : coll.Plain query.keyword)
    (row : TaskRow) : taskWhere coll query row = taskWanted coll query row := by
  have hid : some row.id ∈ row.columns := .head _
  rw [taskWhere, taskWanted, Collation.finds_eq_mentions hplain hid]

/-- A row with one text in all columns, which the filter allows. -/
def uniformRow (query : TaskQuery) (text : String) : TaskRow where
  id := text
  cronExpr := text
  params := text
  handler := text
  status := query.statusFilter
  nextRunAt := none
  lastRunAt := none
  retryCount := 0
  maxRetries := 3
  currentExecutionId := none
  runningNode := none
  startedAt := none
  createdAt := 0

theorem taskWhere_eq_wanted_iff {x : Char} (hone : coll.same '_' x = false)
    (hescape : coll.same '%' '\\' = false) (query : TaskQuery) :
    (∀ row, taskWhere coll query row = taskWanted coll query row) ↔
      coll.Plain query.keyword := by
  refine ⟨?_, fun hplain row => taskWhere_eq_wanted hplain row⟩
  intro h
  refine Collation.plain_of_finds_eq_mentions hone hescape ?_
  intro text
  have hallowed : statusAllowed query (uniformRow query text) = true := by
    simp [statusAllowed, uniformRow]
  have hrow := h (uniformRow query text)
  rw [taskWhere, taskWanted, hallowed, Bool.true_and, Bool.true_and] at hrow
  simpa [Collation.finds, Collation.mentions, TaskRow.columns, uniformRow] using hrow

end ListTasks

/-! ## `ListHistory` -/

/-- A row of `task_history`. -/
structure HistoryRow where
  id : Nat
  executionId : Option String
  taskId : String
  execNode : Option String
  success : Int
  result : Option String
  error : Option String
  startTime : Option DateTime
  endTime : Option DateTime
deriving DecidableEq

/-- The table `task_history`. -/
abbrev HistoryTable := KeyedTable HistoryRow.id

/-- `history_from_result`. -/
def historyFromResult (row : HistoryRow) : TaskHistory where
  executionId := row.executionId.getD ""
  taskId := row.taskId
  execNode := row.execNode.getD ""
  success := row.success == 1
  result := row.result.getD ""
  error := row.error.getD ""
  startTime := row.startTime
  endTime := row.endTime

/-- The columns that `listHistory` searches. -/
def HistoryRow.columns (row : HistoryRow) : List (Option String) :=
  [row.executionId, some row.taskId, row.execNode, row.result, row.error]

/-- `(? = '' OR task_id = ?) AND (? = -1 OR success = ?)`. -/
def historyAllowed (coll : Collation) (query : HistoryQuery) (row : HistoryRow) : Bool :=
  (coll.equal query.taskId "" || coll.equal row.taskId query.taskId) &&
    (query.successFilter == -1 || row.success == query.successFilter)

/-- The `WHERE` clause of `listHistory`. -/
def historyWhere (coll : Collation) (query : HistoryQuery) (row : HistoryRow) : Bool :=
  historyAllowed coll query row && coll.finds query.keyword row.columns

/-- The row passes the filters and contains the keyword. -/
def historyWanted (coll : Collation) (query : HistoryQuery) (row : HistoryRow) : Bool :=
  historyAllowed coll query row && coll.mentions query.keyword row.columns

/-- `ORDER BY id DESC`. -/
def historyBefore (a b : HistoryRow) : Prop := b.id ≤ a.id

/-- What `listHistory` returns if no statement fails. -/
def ListHistoryReturns (coll : Collation) (t : HistoryTable) (query : HistoryQuery)
    (page : Page TaskHistory) : Prop :=
  IsPage historyBefore t.rows (historyWhere coll query) historyFromResult query.offset query.limit
    page

/-- The query of a request. -/
def historyQueryOf (req : Rpc.ListHistoryRequest) : HistoryQuery :=
  ⟨req.taskId, if req.hasSuccessFilter then req.successFilter else -1, req.keyword,
    pageLimit req.limit, pageOffset req.offset⟩

/-- The request for another page. -/
def Rpc.ListHistoryRequest.at (req : Rpc.ListHistoryRequest) (offset : Nat) :
    Rpc.ListHistoryRequest :=
  { req with offset := offset }

/-- A client asks for the history in a table that does not change. -/
structure ListingHistory {σ : Type} (world : Program.World DispatchOp.Reply σ) (coll : Collation)
    (t : HistoryTable) (d : RpcDispatcher) (codec : Codec) (payload : Nat → List UInt8)
    (req : Rpc.ListHistoryRequest) : Prop where
  parsed : ∀ offset < 2 ^ 31, codec.parse .listHistory (payload offset) = some (req.at offset)
  authorized : d.authorized req.authToken = true
  hasDb : d.cfg.hasDb = true
  pages : ∀ s query, ListHistoryReturns coll t query (world (.listHistory query) s).1
  fits : t.rows.length < 2 ^ 31

/-- The message that answers the request for a page, which finds the process in
the state `states turn`. -/
def listHistoryAnswer {σ : Type} (world : Program.World DispatchOp.Reply σ) (states : Nat → σ)
    (req : Rpc.ListHistoryRequest) (turn offset : Nat) : Listed TaskHistory :=
  let page : Page TaskHistory :=
    (world (.listHistory (historyQueryOf (req.at offset))) (states turn)).1
  ⟨page.items, page.total, offset, pageLimit req.limit⟩

section ListHistory

variable {σ : Type} {world : Program.World DispatchOp.Reply σ} {coll : Collation}
  {t : HistoryTable} {d : RpcDispatcher} {codec : Codec} {payload : Nat → List UInt8}
  {req : Rpc.ListHistoryRequest}

theorem handleListHistory_answer (h : ListingHistory world coll t d codec payload req)
    (states : Nat → σ) (turn : Nat) {offset : Nat} (hoffset : offset ≤ t.rows.length) :
    ((handleListHistory d codec (payload offset)).run world (states turn)).1 =
      let answer := listHistoryAnswer world states req turn offset
      codec.makeResponse (.listHistory answer.items answer.total answer.offset answer.limit) := by
  have hauth : d.authorized (Method.listHistory.authToken (req.at offset)) = true := h.authorized
  unfold handleListHistory withRequest
  rw [h.parsed offset (Nat.lt_of_le_of_lt hoffset h.fits)]
  simp only [hauth, h.hasDb]
  rfl

theorem historyBefore_strict (t : HistoryTable) :
    ∀ a ∈ t.rows, ∀ b ∈ t.rows, historyBefore a b → historyBefore b a → a = b := by
  intro a ha b hb hab hba
  exact List.inj_on_of_nodup_map t.nodup ha hb (Nat.le_antisymm hba hab)

/-- The pages of `ListHistory` are the rows of its `WHERE` clause. -/
theorem listHistory_listsExactly (h : ListingHistory world coll t d codec payload req)
    (states : Nat → σ) :
    ListsExactly (listHistoryAnswer world states req) t.rows
      (historyWhere coll (historyQueryOf req)) historyFromResult :=
  listsExactly_of_pages (pageLimit_pos req.limit) (historyBefore_strict t) fun turn offset =>
    h.pages (states turn) (historyQueryOf (req.at offset))

theorem historyWhere_eq_wanted {query : HistoryQuery} (hplain : coll.Plain query.keyword)
    (row : HistoryRow) : historyWhere coll query row = historyWanted coll query row := by
  have htask : some row.taskId ∈ row.columns := .tail _ (.head _)
  rw [historyWhere, historyWanted, Collation.finds_eq_mentions hplain htask]

theorem historyWhere_eq_wanted_iff {x : Char} (hone : coll.same '_' x = false)
    (hescape : coll.same '%' '\\' = false) {query : HistoryQuery}
    (hall : coll.equal query.taskId "" = true) :
    (∀ row, historyWhere coll query row = historyWanted coll query row) ↔
      coll.Plain query.keyword := by
  refine ⟨?_, fun hplain row => historyWhere_eq_wanted hplain row⟩
  intro h
  refine Collation.plain_of_finds_eq_mentions hone hescape ?_
  intro text
  have hrow := h ⟨0, some text, text, some text, query.successFilter, some text, some text, none,
    none⟩
  simpa [historyWhere, historyWanted, historyAllowed, hall, Collation.finds, Collation.mentions,
    HistoryRow.columns] using hrow

end ListHistory

/-! ## Both listings -/

/-- Going through the pages of either listing gives each row of its `WHERE`
clause once, and with a plain keyword these are the rows that contain the
keyword.  For no other keyword are they the same in every table, also not in the
history of all tasks. -/
theorem listing_exact {σ : Type} (world : Program.World DispatchOp.Reply σ) (coll : Collation)
    (d : RpcDispatcher) (codec : Codec) (payload : Nat → List UInt8) (states : Nat → σ) :
    (∀ t req, ListingTasks world coll t d codec payload req →
      (∀ turn, ∀ offset ≤ t.rows.length,
        ((handleListTasks d codec (payload offset)).run world (states turn)).1 =
          let answer := listTasksAnswer world states req turn offset
          codec.makeResponse (.listTasks answer.items answer.total answer.offset answer.limit)) ∧
      ListsExactly (listTasksAnswer world states req) t.rows
        (taskWhere coll (taskQueryOf req)) taskFromResult ∧
      (coll.Plain req.keyword →
        ListsExactly (listTasksAnswer world states req) t.rows
          (taskWanted coll (taskQueryOf req)) taskFromResult)) ∧
    (∀ t req, ListingHistory world coll t d codec payload req →
      (∀ turn, ∀ offset ≤ t.rows.length,
        ((handleListHistory d codec (payload offset)).run world (states turn)).1 =
          let answer := listHistoryAnswer world states req turn offset
          codec.makeResponse (.listHistory answer.items answer.total answer.offset answer.limit)) ∧
      ListsExactly (listHistoryAnswer world states req) t.rows
        (historyWhere coll (historyQueryOf req)) historyFromResult ∧
      (coll.Plain req.keyword →
        ListsExactly (listHistoryAnswer world states req) t.rows
          (historyWanted coll (historyQueryOf req)) historyFromResult)) ∧
    ∀ x, coll.same '_' x = false → coll.same '%' '\\' = false →
      (∀ query : TaskQuery, (∀ row, taskWhere coll query row = taskWanted coll query row) ↔
        coll.Plain query.keyword) ∧
      ∀ query : HistoryQuery, coll.equal query.taskId "" = true →
        ((∀ row, historyWhere coll query row = historyWanted coll query row) ↔
          coll.Plain query.keyword) := by
  refine ⟨?_, ?_, fun x hone hescape => ⟨taskWhere_eq_wanted_iff hone hescape,
    fun query => historyWhere_eq_wanted_iff hone hescape⟩⟩
  · intro t req h
    have hlists := listTasks_listsExactly h states
    refine ⟨fun turn offset => handleListTasks_answer h states turn, hlists, ?_⟩
    intro hplain
    exact hlists.congr fun row _ => taskWhere_eq_wanted hplain row
  · intro t req h
    have hlists := listHistory_listsExactly h states
    refine ⟨fun turn offset => handleListHistory_answer h states turn, hlists, ?_⟩
    intro hplain
    exact hlists.congr fun row _ => historyWhere_eq_wanted hplain row

/-- Texts are compared character by character. -/
def binaryCollation : Collation where
  same a b := a == b
  equal a b := a == b
  le a b := decide (a ≤ b)
  same_refl c := beq_self_eq_true c
  equal_refl text := beq_self_eq_true text

/-- The page of rows that are stored in order. -/
def storedPage {ρ α : Type} (rows : List ρ) (cond : ρ → Bool) (fromResult : ρ → α)
    (offset limit : Nat) : Page α :=
  ⟨(pageOf (rows.filter cond) offset (queryLimit limit)).map fromResult, (rows.filter cond).length⟩

theorem storedPage_isPage {ρ α : Type} {before : ρ → ρ → Prop} {rows : List ρ}
    (h : rows.Pairwise before) (cond : ρ → Bool) (fromResult : ρ → α) (offset limit : Nat) :
    IsPage before rows cond fromResult offset limit
      (storedPage rows cond fromResult offset limit) :=
  ⟨rfl, rows.filter cond, ⟨.refl _, h.filter cond⟩, rfl⟩

/-- A process with a database that is only listed. -/
def listingWorld (coll : Collation) (tasks : TaskTable) (history : HistoryTable) :
    Program.World DispatchOp.Reply Unit
  | .listTasks query, s =>
      (storedPage tasks.rows (taskWhere coll query) taskFromResult query.offset query.limit, s)
  | .listHistory query, s =>
      (storedPage history.rows (historyWhere coll query) historyFromResult query.offset
        query.limit, s)
  | op, s => registryWorld .empty op s

/-- The offset is the length of the payload. -/
def listingCodec (tasks : Rpc.ListTasksRequest) (history : Rpc.ListHistoryRequest) : Codec where
  parse
    | .listTasks, payload => some (tasks.at payload.length)
    | .listHistory, payload => some (history.at payload.length)
    | _, _ => none
  serialize _ := []

def unaryPayload (offset : Nat) : List UInt8 := List.replicate offset 0

/-- One task at a time, with the given keyword. -/
def searchTasks (keyword : String) : Rpc.ListTasksRequest where
  authToken := ""
  limit := 1
  enabledOnly := false
  offset := 0
  statusFilter := 0
  keyword := keyword
  hasStatusFilter := false

def searchHistory (keyword : String) : Rpc.ListHistoryRequest where
  authToken := ""
  taskId := ""
  limit := 1
  offset := 0
  successFilter := 0
  keyword := keyword
  hasSuccessFilter := false

/-- Two tasks, the newer one first. -/
def listedTasks : TaskTable where
  rows := [
    { uniformRow (taskQueryOf (searchTasks "")) "report" with id := "report-2", createdAt := 5 },
    { uniformRow (taskQueryOf (searchTasks "")) "report" with id := "report-1" }]
  nodup := by decide

def listedHistory : HistoryTable where
  rows := [⟨1, some "report-1:0:0", "report-1", some "node-1", 1, some "done", none, none, none⟩]
  nodup := by decide

theorem searchTasks_listing (keyword : String) :
    ListingTasks (listingWorld binaryCollation listedTasks listedHistory) binaryCollation
      listedTasks builtinWorker (listingCodec (searchTasks keyword) (searchHistory keyword))
      unaryPayload (searchTasks keyword) where
  parsed offset _ := by
    change some ((searchTasks keyword).at (List.replicate offset 0).length) = _
    rw [List.length_replicate]
  authorized := by
    rw [authorized_eq]
    rfl
  hasDb := rfl
  pages _ query := by
    refine storedPage_isPage ?_ (taskWhere binaryCollation query) taskFromResult _ _
    exact .cons (fun b hb => .inl (by rw [List.mem_singleton.mp hb]; decide)) (.cons (by simp) .nil)
  key := by decide +kernel
  fits := by decide

theorem searchHistory_listing (keyword : String) :
    ListingHistory (listingWorld binaryCollation listedTasks listedHistory) binaryCollation
      listedHistory builtinWorker (listingCodec (searchTasks keyword) (searchHistory keyword))
      unaryPayload (searchHistory keyword) where
  parsed offset _ := by
    change some ((searchHistory keyword).at (List.replicate offset 0).length) = _
    rw [List.length_replicate]
  authorized := by
    rw [authorized_eq]
    rfl
  hasDb := rfl
  pages _ query :=
    storedPage_isPage (List.pairwise_singleton _ _) (historyWhere binaryCollation query)
      historyFromResult _ _
  fits := by decide

/-- Searching for `-1` in both tables; the search for a task goes on at the
second page. -/
theorem listing_exact_report :
    (ListingTasks (listingWorld binaryCollation listedTasks listedHistory) binaryCollation
        listedTasks builtinWorker (listingCodec (searchTasks "-1") (searchHistory "-1"))
        unaryPayload (searchTasks "-1") ∧
      binaryCollation.Plain (searchTasks "-1").keyword ∧
      ListsExactly
        (listTasksAnswer (listingWorld binaryCollation listedTasks listedHistory) (fun _ => ())
          (searchTasks "-1"))
        listedTasks.rows (taskWanted binaryCollation (taskQueryOf (searchTasks "-1")))
        taskFromResult) ∧
    (ListingHistory (listingWorld binaryCollation listedTasks listedHistory) binaryCollation
        listedHistory builtinWorker (listingCodec (searchTasks "-1") (searchHistory "-1"))
        unaryPayload (searchHistory "-1") ∧
      binaryCollation.Plain (searchHistory "-1").keyword ∧
      ListsExactly
        (listHistoryAnswer (listingWorld binaryCollation listedTasks listedHistory) (fun _ => ())
          (searchHistory "-1"))
        listedHistory.rows (historyWanted binaryCollation (historyQueryOf (searchHistory "-1")))
        historyFromResult) ∧
    binaryCollation.same '_' 'a' = false ∧ binaryCollation.same '%' '\\' = false ∧
    ((∀ row, taskWhere binaryCollation (taskQueryOf (searchTasks "-1")) row =
        taskWanted binaryCollation (taskQueryOf (searchTasks "-1")) row) ↔
      binaryCollation.Plain "-1") := by
  have hplain : binaryCollation.Plain "-1" := by
    refine ⟨?_, fun heq => absurd heq (by decide)⟩
    intro c hc
    have hchar : c = '-' ∨ c = '1' := by simpa using hc
    rcases hchar with rfl | rfl <;> simp [Wildcards.Special, mysqlWildcards]
  obtain ⟨htasks, hhistory, hiff⟩ := listing_exact
    (listingWorld binaryCollation listedTasks listedHistory) binaryCollation builtinWorker
    (listingCodec (searchTasks "-1") (searchHistory "-1")) unaryPayload (fun _ => ())
  refine ⟨⟨searchTasks_listing "-1", hplain, ?_⟩, ⟨searchHistory_listing "-1", hplain, ?_⟩,
    by decide, by decide, (hiff 'a' (by decide) (by decide)).1 (taskQueryOf (searchTasks "-1"))⟩
  · exact (htasks listedTasks (searchTasks "-1") (searchTasks_listing "-1")).2.2 hplain
  · exact (hhistory listedHistory (searchHistory "-1") (searchHistory_listing "-1")).2.2 hplain

/-- A search for `_` finds both tasks, though the symbol is in neither of
them. -/
theorem underscore_finds_all_tasks :
    ListingTasks (listingWorld binaryCollation listedTasks listedHistory) binaryCollation
      listedTasks builtinWorker (listingCodec (searchTasks "_") (searchHistory "_"))
      unaryPayload (searchTasks "_") ∧
    listedTasks.rows.filter (taskWanted binaryCollation (taskQueryOf (searchTasks "_"))) = [] ∧
    (listTasksAnswer (listingWorld binaryCollation listedTasks listedHistory) (fun _ => ())
      (searchTasks "_") 0 0).total = 2 ∧
    ¬ListsExactly
      (listTasksAnswer (listingWorld binaryCollation listedTasks listedHistory) (fun _ => ())
        (searchTasks "_"))
      listedTasks.rows (taskWanted binaryCollation (taskQueryOf (searchTasks "_")))
      taskFromResult := by
  have hwanted : listedTasks.rows.filter
      (taskWanted binaryCollation (taskQueryOf (searchTasks "_"))) = [] := by decide +kernel
  have htotal : (listTasksAnswer (listingWorld binaryCollation listedTasks listedHistory)
      (fun _ => ()) (searchTasks "_") 0 0).total = 2 := by decide +kernel
  refine ⟨searchTasks_listing "_", hwanted, htotal, ?_⟩
  intro h
  have hzero := h.2 0 0
  rw [htotal, hwanted] at hzero
  cases hzero

end Corpcron
