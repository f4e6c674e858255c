import Mathlib.Data.Finset.Card
import Rmcp.Model.Variants
import Rmcp.Service.Serve

/-!
# Listing everything

`list_all_tools` and its three siblings ask for page after page, each with the cursor that the
page before it carried, until a page carries none. Nothing else ends the loop, so the server
decides whether it ends.

A server is a function of all requests that it has received.

Results:
1. `follows_listAll`: the state of the loop after any number of turns.
2. `lists_all_pages`: what is returned, when a cursor is sent again, and how many requests are made
   when the server repeats none.
3. `cycling_server_never_ends`: a server that gives the same cursor with every page.
-/

namespace Rmcp

namespace Service

variable {L : Leaves} {E α : Type}

/-- `ServiceError`, as the methods of a peer return it. -/
inductive MethodError (E : Type)
  | failed (error : ServiceError E)
  | unexpectedResponse

/-- What a server answers to the last of the requests. -/
abbrev Server (L : Leaves) (E : Type) :=
  List (ClientRequest L) → Except (ServiceError E) (ServerResult L)

/-- What `method!` is given: the request, and the result that it expects. -/
structure Listing (L : Leaves) (α : Type) where
  request : RequestOptionalParam PaginatedRequestParam → ClientRequest L
  page : ServerResult L → Option (PaginatedResult α)

def listTools : Listing L L.Tool where
  request := .listToolsRequest
  page
    | .listToolsResult result => some result
    | _ => none

def listPrompts : Listing L L.Prompt where
  request := .listPromptsRequest
  page
    | .listPromptsResult result => some result
    | _ => none

def listResources : Listing L L.Resource where
  request := .listResourcesRequest
  page
    | .listResourcesResult result => some result
    | _ => none

def listResourceTemplates : Listing L L.ResourceTemplate where
  request := .listResourceTemplatesRequest
  page
    | .listResourceTemplatesResult result => some result
    | _ => none

namespace Listing

def requestFor (k : Listing L α) (cursor : Option String) : ClientRequest L :=
  k.request ⟨some ⟨cursor⟩, ⟨none⟩⟩

/-- The method of the peer, after requests with the `cursors` up to its own. -/
def ask (k : Listing L α) (server : Server L E) (cursors : List (Option String)) :
    Except (MethodError E) (PaginatedResult α) :=
  match server (cursors.map k.requestFor) with
  | .error e => .error (.failed e)
  | .ok result =>
    match k.page result with
    | some page => .ok page
    | none => .error .unexpectedResponse

end Listing

/-! ## The loop -/

/-- The loop, with the cursors of the requests that it has sent. -/
inductive ListAll (E α : Type)
  | asking (sent : List (Option String)) (items : List α) (cursor : Option String)
  | returned (sent : List (Option String)) (result : Except (MethodError E) (List α))

def ListAll.sent : ListAll E α → List (Option String)
  | .asking sent _ _ => sent
  | .returned sent _ => sent

def ListAll.turn (k : Listing L α) (server : Server L E) : ListAll E α → ListAll E α
  | .asking sent items cursor =>
    let sent := sent ++ [cursor]
    match k.ask server sent with
    | .error e => .returned sent (.error e)
    | .ok page =>
      let items := items ++ page.items
      match page.nextCursor with
      | none => .returned sent (.ok items)
      | some cursor => .asking sent items (some cursor)
  | .returned sent result => .returned sent result

/-- The loop after a number of turns. -/
def listAll (k : Listing L α) (server : Server L E) : Nat → ListAll E α
  | 0 => .asking [] [] none
  | n + 1 => (listAll k server n).turn k server

def listAllTools (server : Server L E) : Nat → ListAll E L.Tool := listAll listTools server

def listAllPrompts (server : Server L E) : Nat → ListAll E L.Prompt := listAll listPrompts server

def listAllResources (server : Server L E) : Nat → ListAll E L.Resource :=
  listAll listResources server

def listAllResourceTemplates (server : Server L E) : Nat → ListAll E L.ResourceTemplate :=
  listAll listResourceTemplates server

/-! ## The pages of a server -/

/-- No page is the last one. -/
def GoesOn (pages : List (PaginatedResult α)) : Prop := ∀ page ∈ pages, page.nextCursor ≠ none

/-- The cursors that come with the pages. -/
def handed (pages : List (PaginatedResult α)) : List String := pages.filterMap (·.nextCursor)

/-- The cursors to ask with: none for the first page, then those that came with the pages. -/
def cursorsAfter (pages : List (PaginatedResult α)) : List (Option String) :=
  none :: pages.map (·.nextCursor)

/-- What the server gives to a client that asks for the pages one after the other. -/
inductive Received (k : Listing L α) (server : Server L E) : List (PaginatedResult α) → Prop
  | nil : Received k server []
  | concat {pages : List (PaginatedResult α)} {page : PaginatedResult α} :
      Received k server pages → GoesOn pages → k.ask server (cursorsAfter pages) = .ok page →
      Received k server (pages ++ [page])

section Pages

variable {k : Listing L α} {server : Server L E} {pages : List (PaginatedResult α)}
  {page : PaginatedResult α}

theorem goesOn_concat : GoesOn (pages ++ [page]) ↔ GoesOn pages ∧ page.nextCursor ≠ none := by
  simp only [GoesOn, List.forall_mem_append, List.forall_mem_singleton]

theorem cursorsAfter_concat (pages : List (PaginatedResult α)) (page : PaginatedResult α) :
    cursorsAfter (pages ++ [page]) = cursorsAfter pages ++ [page.nextCursor] := by
  simp [cursorsAfter]

theorem map_handed (h : GoesOn pages) : (handed pages).map some = pages.map (·.nextCursor) := by
  induction pages with
  | nil => rfl
  | cons page pages ih =>
    obtain ⟨hpage, hpages⟩ := List.forall_mem_cons.mp h
    obtain ⟨cursor, hcursor⟩ := Option.ne_none_iff_exists'.mp hpage
    simp only [handed, List.filterMap_cons, hcursor, List.map_cons]
    rw [← ih hpages]
    rfl

theorem length_handed (h : GoesOn pages) : (handed pages).length = pages.length := by
  have hlength : ((handed pages).map some).length = (handed pages).length := List.length_map _
  rw [← hlength, map_handed h, List.length_map]

/-- A client asks with a cursor again when it was handed it again. -/
theorem nodup_cursorsAfter (h : GoesOn pages) :
    (cursorsAfter pages).Nodup ↔ (handed pages).Nodup := by
  rw [cursorsAfter, ← map_handed h, List.nodup_cons, List.nodup_map_iff (Option.some_injective _)]
  simp

theorem Received.of_concat (h : Received k server (pages ++ [page])) :
    Received k server pages ∧ GoesOn pages ∧ k.ask server (cursorsAfter pages) = .ok page := by
  generalize hall : pages ++ [page] = all at h
  cases h with
  | nil => simp at hall
  | concat hpages hon hask =>
    obtain ⟨rfl, heq⟩ := List.append_inj' hall rfl
    cases heq
    exact ⟨hpages, hon, hask⟩

end Pages

/-! ## The loop and the pages -/

/-- The state of the loop after at most `n` requests, in terms of the pages. -/
inductive Follows (k : Listing L α) (server : Server L E) (n : Nat) : ListAll E α → Prop
  | asking {pages : List (PaginatedResult α)} {sent : List (Option String)}
      {cursor : Option String} :
      Received k server pages → GoesOn pages → pages.length = n →
      sent ++ [cursor] = cursorsAfter pages →
      Follows k server n (.asking sent (pages.flatMap (·.items)) cursor)
  | ended {pages : List (PaginatedResult α)} {last : PaginatedResult α} :
      Received k server (pages ++ [last]) → last.nextCursor = none → pages.length < n →
      Follows k server n
        (.returned (cursorsAfter pages) (.ok ((pages ++ [last]).flatMap (·.items))))
  | failed {pages : List (PaginatedResult α)} {e : MethodError E} :
      Received k server pages → GoesOn pages → k.ask server (cursorsAfter pages) = .error e →
      pages.length < n → Follows k server n (.returned (cursorsAfter pages) (.error e))

section Loop

variable {k : Listing L α} {server : Server L E} {pages : List (PaginatedResult α)}

theorem flatMap_items_concat (pages : List (PaginatedResult α)) (page : PaginatedResult α) :
    pages.flatMap (·.items) ++ page.items = (pages ++ [page]).flatMap (·.items) := by
  simp

theorem Follows.turn {n : Nat} {st : ListAll E α} (h : Follows k server n st) :
    Follows k server (n + 1) (st.turn k server) := by
  cases h with
  | @asking pages sent cursor hpages hon hlength hsent =>
    simp only [ListAll.turn, hsent]
    cases hask : k.ask server (cursorsAfter pages) with
    | error e => exact .failed hpages hon hask (by omega)
    | ok page =>
      have hreceived := hpages.concat hon hask
      simp only [flatMap_items_concat]
      cases hnext : page.nextCursor with
      | none => exact .ended hreceived hnext (by omega)
      | some cursor =>
        refine .asking hreceived (goesOn_concat.mpr ⟨hon, by simp [hnext]⟩) (by simp [hlength]) ?_
        rw [cursorsAfter_concat, hnext]
  | ended hpages hlast hn => exact .ended hpages hlast (Nat.lt_succ_of_lt hn)
  | failed hpages hon hask hn => exact .failed hpages hon hask (Nat.lt_succ_of_lt hn)

theorem follows_listAll (k : Listing L α) (server : Server L E) (n : Nat) :
    Follows k server n (listAll k server n) := by
  induction n with
  | zero => exact .asking .nil (List.forall_mem_nil _) rfl rfl
  | succ n ih => exact ih.turn

/-- The loop gets all pages that the server gives. -/
theorem Received.listAll (h : Received k server pages) (hon : GoesOn pages) :
    ∃ sent cursor, listAll k server pages.length =
        .asking sent (pages.flatMap (·.items)) cursor ∧ sent ++ [cursor] = cursorsAfter pages := by
  induction h with
  | nil => exact ⟨[], none, rfl, rfl⟩
  | @concat pages page hpages hbefore hask ih =>
    obtain ⟨-, hnext⟩ := goesOn_concat.mp hon
    obtain ⟨next, hnext⟩ := Option.ne_none_iff_exists'.mp hnext
    obtain ⟨sent, cursor, hlist, hsent⟩ := ih hbefore
    refine ⟨cursorsAfter pages, some next, ?_, ?_⟩
    · simp only [List.length_append, List.length_singleton, Service.listAll, hlist, ListAll.turn,
        hsent, hask, hnext, flatMap_items_concat]
    · rw [cursorsAfter_concat, hnext]

/-- The next turn sends one more cursor. -/
theorem Received.listAll_succ (h : Received k server pages) (hon : GoesOn pages) :
    ∃ sent cursor, sent ++ [cursor] = cursorsAfter pages ∧
      Service.listAll k server (pages.length + 1) =
        ListAll.turn k server (.asking sent (pages.flatMap (·.items)) cursor) := by
  obtain ⟨sent, cursor, hlist, hsent⟩ := h.listAll hon
  exact ⟨sent, cursor, hsent, congrArg _ hlist⟩

theorem sent_turn {sent : List (Option String)} {items : List α} {cursor : Option String} :
    (ListAll.turn k server (.asking sent items cursor)).sent = sent ++ [cursor] := by
  simp only [ListAll.turn]
  split
  · rfl
  · split <;> rfl

theorem returns_ok_iff (k : Listing L α) (server : Server L E) (items : List α) :
    (∃ n sent, listAll k server n = .returned sent (.ok items)) ↔
      ∃ pages last, Received k server (pages ++ [last]) ∧ last.nextCursor = none ∧
        items = (pages ++ [last]).flatMap (·.items) := by
  constructor
  · rintro ⟨n, sent, h⟩
    have hfollows := follows_listAll k server n
    rw [h] at hfollows
    cases hfollows with
    | @ended pages last hpages hlast hn => exact ⟨pages, last, hpages, hlast, rfl⟩
  · rintro ⟨pages, last, hpages, hlast, rfl⟩
    obtain ⟨hbefore, hon, hask⟩ := hpages.of_concat
    obtain ⟨sent, cursor, hsent, hlist⟩ := hbefore.listAll_succ hon
    refine ⟨pages.length + 1, cursorsAfter pages, hlist.trans ?_⟩
    simp only [ListAll.turn, hsent, hask, hlast, flatMap_items_concat]

theorem returns_error_iff (k : Listing L α) (server : Server L E) (e : MethodError E) :
    (∃ n sent, listAll k server n = .returned sent (.error e)) ↔
      ∃ pages, Received k server pages ∧ GoesOn pages ∧
        k.ask server (cursorsAfter pages) = .error e := by
  constructor
  · rintro ⟨n, sent, h⟩
    have hfollows := follows_listAll k server n
    rw [h] at hfollows
    cases hfollows with
    | @failed pages _ hpages hon hask hn => exact ⟨pages, hpages, hon, hask⟩
  · rintro ⟨pages, hpages, hon, hask⟩
    obtain ⟨sent, cursor, hsent, hlist⟩ := hpages.listAll_succ hon
    refine ⟨pages.length + 1, cursorsAfter pages, hlist.trans ?_⟩
    simp only [ListAll.turn, hsent, hask]

/-- What is sent is a part of the cursors to ask with. -/
theorem Follows.sent_initial {n : Nat} {st : ListAll E α} (h : Follows k server n st) :
    ∃ pages, Received k server pages ∧ GoesOn pages ∧ st.sent <+: cursorsAfter pages ∧
      st.sent.length ≤ n := by
  cases h with
  | @asking pages sent cursor hpages hon hlength hsent =>
    refine ⟨pages, hpages, hon, ⟨[cursor], hsent⟩, ?_⟩
    have hcount := congrArg List.length hsent
    simp only [List.length_append, cursorsAfter, List.length_cons, List.length_map] at hcount
    simp only [ListAll.sent]
    omega
  | ended hpages hlast hn =>
    obtain ⟨hbefore, hon, -⟩ := hpages.of_concat
    exact ⟨_, hbefore, hon, List.prefix_refl _,
      by simpa [ListAll.sent, cursorsAfter] using Nat.succ_le_of_lt hn⟩
  | failed hpages hon hask hn =>
    exact ⟨_, hpages, hon, List.prefix_refl _,
      by simpa [ListAll.sent, cursorsAfter] using Nat.succ_le_of_lt hn⟩

theorem sends_again_iff (k : Listing L α) (server : Server L E) :
    (∃ n, ¬ (listAll k server n).sent.Nodup) ↔
      ∃ pages, Received k server pages ∧ GoesOn pages ∧ ¬ (handed pages).Nodup := by
  constructor
  · rintro ⟨n, h⟩
    obtain ⟨pages, hpages, hon, hprefix, -⟩ := (follows_listAll k server n).sent_initial
    exact ⟨pages, hpages, hon,
      fun hnodup => h (((nodup_cursorsAfter hon).mpr hnodup).sublist hprefix.sublist)⟩
  · rintro ⟨pages, hpages, hon, h⟩
    obtain ⟨sent, cursor, hsent, hlist⟩ := hpages.listAll_succ hon
    refine ⟨pages.length + 1, ?_⟩
    rw [hlist, sent_turn, hsent, nodup_cursorsAfter hon]
    exact h

/-- Finitely many cursors, none of them given twice, are used up. -/
theorem stops_of_fresh (k : Listing L α) (server : Server L E) {cursors : Finset String}
    (h : ∀ pages, Received k server pages → GoesOn pages →
      (handed pages).Nodup ∧ ∀ cursor ∈ handed pages, cursor ∈ cursors) :
    ∃ n sent result, listAll k server n = .returned sent result ∧ sent.Nodup ∧
      sent.length ≤ cursors.card + 1 := by
  have hfollows := follows_listAll k server (cursors.card + 1)
  obtain ⟨pages, hpages, hon, hprefix, hlength⟩ := hfollows.sent_initial
  have hnodup := ((nodup_cursorsAfter hon).mpr (h pages hpages hon).1).sublist hprefix.sublist
  refine ⟨cursors.card + 1, ?_⟩
  cases hlist : listAll k server (cursors.card + 1) with
  | returned sent result =>
    rw [hlist] at hnodup hlength
    exact ⟨sent, result, rfl, hnodup, hlength⟩
  | asking sent items cursor =>
    rw [hlist] at hfollows
    cases hfollows with
    | @asking pages _ _ hpages hon hcount _ =>
      obtain ⟨hfresh, hmem⟩ := h pages hpages hon
      have hcard : (handed pages).length ≤ cursors.card := by
        rw [← List.toFinset_card_of_nodup hfresh]
        exact Finset.card_le_card fun cursor hcursor => hmem cursor (List.mem_toFinset.mp hcursor)
      rw [length_handed hon] at hcard
      omega

end Loop

/-- What is to be expected of a loop that lists everything. -/
structure ListsAll (k : Listing L α) (server : Server L E) (loop : Nat → ListAll E α) : Prop where
  ok_iff : ∀ items, (∃ n sent, loop n = .returned sent (.ok items)) ↔
    ∃ pages last, Received k server (pages ++ [last]) ∧ last.nextCursor = none ∧
      items = (pages ++ [last]).flatMap (·.items)
  error_iff : ∀ e, (∃ n sent, loop n = .returned sent (.error e)) ↔
    ∃ pages, Received k server pages ∧ GoesOn pages ∧ k.ask server (cursorsAfter pages) = .error e
  sends_again_iff : (∃ n, ¬ (loop n).sent.Nodup) ↔
    ∃ pages, Received k server pages ∧ GoesOn pages ∧ ¬ (handed pages).Nodup
  stops : ∀ cursors : Finset String,
    (∀ pages, Received k server pages → GoesOn pages →
      (handed pages).Nodup ∧ ∀ cursor ∈ handed pages, cursor ∈ cursors) →
    ∃ n sent result, loop n = .returned sent result ∧ sent.Nodup ∧ sent.length ≤ cursors.card + 1

theorem listsAll_listAll (k : Listing L α) (server : Server L E) :
    ListsAll k server (listAll k server) where
  ok_iff := returns_ok_iff k server
  error_iff := returns_error_iff k server
  sends_again_iff := sends_again_iff k server
  stops _ := stops_of_fresh k server

/-- The items of all pages are returned, or the first failure. A cursor is sent again exactly when
the server gave it again; a server that gives none of finitely many cursors twice is asked at most
once more than there are cursors. -/
theorem lists_all_pages (server : Server L E) :
    ListsAll listTools server (listAllTools server) ∧
    ListsAll listPrompts server (listAllPrompts server) ∧
    ListsAll listResources server (listAllResources server) ∧
    ListsAll listResourceTemplates server (listAllResourceTemplates server) :=
  ⟨listsAll_listAll .., listsAll_listAll .., listsAll_listAll .., listsAll_listAll ..⟩

/-- A server with one cursor, which comes with every page. -/
def cyclingServer : Server plainLeaves Unit := fun _ =>
  .ok (.listToolsResult ⟨some "more", [.null]⟩)

/-- Its tools are listed for ever, and the cursor is sent again and again. -/
theorem cycling_server_never_ends :
    (∀ n, ∃ sent items cursor, listAllTools cyclingServer n = .asking sent items cursor ∧
      items.length = n) ∧
    (listAllTools cyclingServer 3).sent = [none, some "more", some "more"] := by
  refine ⟨fun n => ?_, rfl⟩
  induction n with
  | zero => exact ⟨[], [], none, rfl, rfl⟩
  | succ n ih =>
    obtain ⟨sent, items, cursor, hlist, hlength⟩ := ih
    have hturn : listAllTools cyclingServer (n + 1) =
        ListAll.turn listTools cyclingServer (listAllTools cyclingServer n) := rfl
    exact ⟨sent ++ [cursor], items ++ [.null], some "more", hturn.trans (hlist ▸ rfl),
      by rw [List.length_append, hlength]; rfl⟩

end Service

end Rmcp
