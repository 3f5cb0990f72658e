import IntercomSalve.Lib.Goto
import IntercomSalve.Lib.Mem
import IntercomSalve.Lib.Ring
import IntercomSalve.Lib.Run
import IntercomSalve.Lib.Fifo
import IntercomSalve.Lib.Pointers
import IntercomSalve.Lib.CString
import IntercomSalve.State
import IntercomSalve.Adpcm
import IntercomSalve.Audio
import IntercomSalve.Calls
import IntercomSalve.Receive
import IntercomSalve.Socket
import IntercomSalve.Threads
import IntercomSalve.System
import IntercomSalve.Handlers
import IntercomSalve.Cursor
import IntercomSalve.Invariants
import IntercomSalve.Reads
import IntercomSalve.Beyond
import IntercomSalve.Frames
import IntercomSalve.Coalesce
import IntercomSalve.Fragment
import IntercomSalve.Bounds
import IntercomSalve.Messages
import IntercomSalve.Session
import IntercomSalve.CallState
import IntercomSalve.HangUp
import IntercomSalve.OneSession
import IntercomSalve.PocMode
import IntercomSalve.Rs485
import IntercomSalve.Codec
import IntercomSalve.PlayRing
import IntercomSalve.SendRing
import IntercomSalve.Effects
import IntercomSalve.Framing
import IntercomSalve.Relay
import IntercomSalve.Reports
import IntercomSalve.Overtime
import IntercomSalve.Microphone
import IntercomSalve.VoicePath
import IntercomSalve.CallStart
import IntercomSalve.HttpClient
import IntercomSalve.Download
import IntercomSalve.Flashing
import IntercomSalve.Settling
import IntercomSalve.CallTimer
import IntercomSalve.Reassembly
import IntercomSalve.Answer
import IntercomSalve.Fills
import IntercomSalve.Backlog
import IntercomSalve.Markers
import IntercomSalve.Records
import IntercomSalve.EchoThread
import IntercomSalve.Fota
import IntercomSalve.FotaCopy
import IntercomSalve.Upgrade
import IntercomSalve.Prompts
import IntercomSalve.UrlParse
import IntercomSalve.UpgradeUrl
import IntercomSalve.BoardFrames
import IntercomSalve.ChunkedBody
import IntercomSalve.ChunkLoop
import IntercomSalve.ChunkDecoder
import IntercomSalve.Traffic
import IntercomSalve.Delivery
import IntercomSalve.Supervision
import IntercomSalve.Watchdog
import IntercomSalve.Lib.HttpHead
import IntercomSalve.HttpRequest
import IntercomSalve.ReceiveEnds
import IntercomSalve.RequestChain
import IntercomSalve.RequestRuns
import IntercomSalve.RequestText
import IntercomSalve.RequestEnds
import IntercomSalve.HttpTest
