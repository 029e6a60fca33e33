import ProviderKit.Launch.SocketAddress
import ProviderKit.Provider.Error

/-!
# Launching a provider

A provider is launched by its host, which proves itself by a secret in the environment.
A provider that listens announces its address on one line, together with the versions of
the handshake and of the protocol.
-/

namespace ProviderKit
namespace Launch

/-- The secret of a host. -/
def cookie : String :=
  "d602bf8f470bc67ca7faa0386276bbdd4330efaf76d1a219cb4d6991ca9872b2"

def handshakeVersion : Nat := 1

def protocolVersion : Nat := 5

/-- How a provider is served. -/
structure Options where
  /-- How long running calls may take after the order to stop, in milliseconds. -/
  shutdownTimeout : Nat := 30000
  /-- Whether a host has to prove itself. -/
  checksCookie : Bool := true

namespace Options

def withShutdownTimeout (options : Options) (milliseconds : Nat) : Options :=
  { options with shutdownTimeout := milliseconds }

def withoutCookie (options : Options) : Options :=
  { options with checksCookie := false }

end Options

/-- Check that a provider was launched by its host, given what the environment holds. -/
def check (options : Options) (found : Option String) : Except ProviderError Unit :=
  if options.checksCookie && found != some cookie then .error .notPlugin else .ok ()

/-- The line by which a provider announces its address. -/
def handshakeLine (address : SocketAddress) : String :=
  Nat.repr handshakeVersion ++ "|" ++ Nat.repr protocolVersion ++ "|tcp|" ++ address.text ++
    "|grpc"

end Launch
end ProviderKit
