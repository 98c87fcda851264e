import DraftDesk.LabelCache

/-!
# Cache scripts

A script lists the calls of one caller on a label cache. A call that has to fetch first runs the
calls of its fetch, to any depth, and then ends as the script says. A call that would wait for a
fetch further out is blocked and changes nothing.
-/

namespace DraftDesk

/-- A call on the cache, with what its fetch does if it has to fetch. -/
inductive CacheCall where
  | inspect
  | clear
  | get (key : String)
  | ask (query : LabelQuery) (during : List CacheCall) (outcome : Outcome String query.Answer)

/-- What a call gave back. -/
inductive CacheReply where
  | done
  | found (label : Option String)
  /-- The outcome of a query; none if it was blocked. -/
  | asked (query : LabelQuery) (outcome : Option (Outcome String query.Answer))

/-- What happened at a call. -/
inductive CacheEntry where
  | mk (reply : CacheReply) (fetched : Option LabelQuery) (during : List CacheEntry)
    (table : TableState)

namespace CacheCall

mutual

/-- Makes a call: what happened, and the cache after it. -/
def run (cache : LabelCache) : CacheCall → CacheEntry × LabelCache
  | .inspect => (.mk .done none [] cache.table, cache)
  | .clear => (.mk .done none [] cache.clear.table, cache.clear)
  | .get key => (.mk (.found (cache.get? key)) none [] cache.table, cache)
  | .ask query during outcome =>
    match cache.enter query with
    | (.answer a, cache) => (.mk (.asked query (some (.value a))) none [] cache.table, cache)
    | (.wait, cache) => (.mk (.asked query none) none [] cache.table, cache)
    | (.fetch, cache) =>
      let (entries, cache) := runAll cache during
      let cache := cache.leave query outcome
      (.mk (.asked query (some outcome)) (some query) entries cache.table, cache)

/-- Makes some calls one after another. -/
def runAll (cache : LabelCache) : List CacheCall → List CacheEntry × LabelCache
  | [] => ([], cache)
  | call :: calls =>
    let (entry, cache) := run cache call
    let (entries, cache) := runAll cache calls
    (entry :: entries, cache)

end

end CacheCall

end DraftDesk
