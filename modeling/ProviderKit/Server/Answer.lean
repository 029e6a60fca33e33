import ProviderKit.Server.Configuration
import ProviderKit.Server.Lifecycle

/-!
# Answering calls

The remaining calls, and the dispatch of all of them.  A call without a request gets
an empty response, and no code of the provider runs.  A service behind a transport
never sees a missing request: there, it is an empty one.
-/

namespace ProviderKit
namespace Server

variable {m : Type → Type} [Monad m] {δ : Type}

/-- Read a data source.  Nothing may be unknown afterwards. -/
def readDataSource (server : Server m δ) :
    Option Protocol.ReadDataSourceRequest → m Protocol.NewStateResponse
  | none => pure {}
  | some request => do
    let (found, lookup) ← server.dataSource request.typeName
    match found with
    | none => pure { diagnostics := lookup.toWire }
    | some source =>
      let schema := source.schema
      let (config, problems) := decodePayload schema "configuration" request.config
      let (providerMeta, metaProblems) := server.decodeMeta request.providerMeta
      let before := lookup ++ problems ++ metaProblems
      if before.hasError then pure { diagnostics := before.toWire }
      else
        let response ← source.read ⟨⟨schema, config⟩, providerMeta⟩ ⟨⟨schema, config⟩, []⟩
        let after := before ++ response.diagnostics
        pure {
          state := some (.encode response.state.raw)
          diagnostics := (andThen after (unknownAfter "read" response.state.raw)).toWire }

def stopProvider (server : Server m δ) : m Protocol.StopResponse := do
  match ← server.provider.stop with
  | .ok () => pure {}
  | .error error => pure ⟨error.message⟩

/-- Answer one call.  The result is the response and the server afterwards. -/
def answer (server : Server m δ) : Protocol.Request → m (Protocol.Response × Server m δ)
  | .getProviderSchema => keep .schema server.getProviderSchema
  | .validateProviderConfig request => keep .diagnostics (server.validateProviderConfig request)
  | .configureProvider request => do
    let (response, after) ← server.configureProvider request
    pure (.diagnostics response, after)
  | .validateResourceConfig request => keep .diagnostics (server.validateResourceConfig request)
  | .validateDataSourceConfig request =>
    keep .diagnostics (server.validateDataSourceConfig request)
  | .upgradeResourceState request => keep .upgradedState (server.upgradeResourceState request)
  | .readResource request => keep .newState (server.readResource request)
  | .planResourceChange request => keep .plannedChange (server.planResourceChange request)
  | .applyResourceChange request => keep .newState (server.applyResourceChange request)
  | .importResourceState request => keep .importedState (server.importResourceState request)
  | .readDataSource request => keep .dataSourceState (server.readDataSource request)
  | .stopProvider => keep .stopped server.stopProvider
where
  /-- A call after which the server is as before. -/
  keep {α : Type} (wrap : α → Protocol.Response) (response : m α) :
      m (Protocol.Response × Server m δ) := do
    pure (wrap (← response), server)

/-- Answer calls one after the other. -/
def answerAll (server : Server m δ) :
    List Protocol.Request → m (List Protocol.Response × Server m δ)
  | [] => pure ([], server)
  | request :: rest => do
    let (response, after) ← server.answer request
    let (responses, last) ← after.answerAll rest
    pure (response :: responses, last)

/-- Answer a call that came over a transport, where no request is ever missing. -/
def answerRemote (server : Server m δ) (request : Protocol.Request) :
    m (Protocol.Response × Server m δ) :=
  server.answer request.present

end Server
end ProviderKit
