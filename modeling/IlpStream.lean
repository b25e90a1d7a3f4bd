import IlpStream.Oer.Codec
import IlpStream.Oer.Utf8
import IlpStream.Protocol.Frame
import IlpStream.Protocol.Packet
import IlpStream.Protocol.Encryption
import IlpStream.Protocol.Exchange
import IlpStream.Crypto.Derivation
import IlpStream.Util.Receipt
import IlpStream.Server.Address
import IlpStream.Server.HandleData
import IlpStream.Ildcp.Fetch
import IlpStream.Server.Lifecycle
import IlpStream.Data.OffsetSorter
import IlpStream.Data.SorterInvariant
import IlpStream.Data.Reassembly
import IlpStream.Data.Duplicate
